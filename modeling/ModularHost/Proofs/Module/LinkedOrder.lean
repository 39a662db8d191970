import Mathlib.Data.List.Pairwise
import ModularHost.Module.Discovery
import ModularHost.Proofs.Module.LinkedPaths
import ModularHost.Proofs.PathOrder
/-!
# The order of linked modules

The table puts the names in order and adds the extension to each, and a directory's files are put in
order as they are called. The two orders are the same as long as no name is another one with
something behind it that comes before the extension (`Text.append_lt_append_iff`): `a` comes before
`a-b`, but `a.module` after `a-b.module`, since a hyphen comes before a dot.

So the paths of the linked modules are in order unless there are two such names, and only then does
a directory with the same files list them differently (`linked_paths_increasing_iff`).
-/


namespace ModularHost

variable {β γ : Type}

namespace Text

/-! ## Texts with an ending -/

theorem append_lt_append_left_iff (front x y : List Char) : front ++ x < front ++ y ↔ x < y := by
  induction front with
  | nil => rfl
  | cons c front ih => simp [ih]

/-- A text comes before another because it is the beginning of it, or because of a character in
which they differ; then it does not matter what follows. -/
theorem lt_cases {a b : List Char} (h : a < b) :
    (∃ rest, rest ≠ [] ∧ b = a ++ rest) ∨ ∀ x y, a ++ x < b ++ y := by
  induction a generalizing b with
  | nil =>
    refine .inl ⟨b, ?_, rfl⟩
    rintro rfl
    exact List.lt_irrefl _ h
  | cons c a ih =>
    cases b with
    | nil => exact absurd h (List.not_lt_nil _)
    | cons d b =>
      rcases List.cons_lt_cons_iff.1 h with hlt | ⟨rfl, hlt⟩
      · exact .inr fun x y => List.cons_lt_cons_iff.2 (.inl hlt)
      · rcases ih hlt with ⟨rest, hne, rfl⟩ | hall
        · exact .inl ⟨rest, hne, rfl⟩
        · exact .inr fun x y => List.cons_lt_cons_iff.2 (.inr ⟨rfl, hall x y⟩)

/-- One text is another with something behind it, which comes before an ending that both are
given. -/
def Overtakes (ending a b : String) : Prop := ∃ rest, b = a ++ rest ∧ rest ++ ending < ending

/-- **Texts keep their order under the same ending, unless one overtakes the other.** -/
theorem append_lt_append_iff {a b : String} (h : a < b) (ending : String) :
    a ++ ending < b ++ ending ↔ ¬ Overtakes ending a b := by
  rcases lt_cases (String.lt_iff.1 h) with ⟨rest, hne, hb⟩ | hall
  · obtain rfl : b = a ++ String.ofList rest := by
      rw [← String.toList_inj, hb, String.toList_append, String.toList_ofList]
    have hsame : a ++ ending < a ++ String.ofList rest ++ ending ↔
        ending < String.ofList rest ++ ending := by
      simp only [String.lt_iff, String.toList_append, List.append_assoc]
      exact append_lt_append_left_iff _ _ _
    have hdiffer : String.ofList rest ++ ending ≠ ending := by
      intro heq
      have hlength := congrArg (fun s => s.toList.length) heq
      simp [hne] at hlength
    rw [hsame]
    constructor
    · rintro hlt ⟨other, hother, hbefore⟩
      obtain rfl : String.ofList rest = other := by
        have hlists := congrArg String.toList hother
        rw [String.toList_append, String.toList_append] at hlists
        exact String.toList_inj.1 (List.append_cancel_left hlists)
      exact String.lt_asymm hlt hbefore
    · intro hno
      have hnot : ¬ String.ofList rest ++ ending < ending := fun hlt => hno ⟨_, rfl, hlt⟩
      rcases String.le_total (String.ofList rest ++ ending) ending with hle | hle
      · exact absurd (String.le_antisymm hle (String.not_lt.1 hnot)) hdiffer
      · refine String.not_le.1 fun hle' => hdiffer (String.le_antisymm hle' hle)
  · have hlt : a ++ ending < b ++ ending := by
      rw [String.lt_iff, String.toList_append, String.toList_append]
      exact hall _ _
    refine iff_of_true hlt ?_
    -- what differs from another text in a character is not the beginning of it
    rintro ⟨rest, rfl, -⟩
    have hself := hall rest.toList []
    rw [String.toList_append, List.append_nil] at hself
    exact List.lt_irrefl _ hself

/-- What overtakes a text comes after it. -/
theorem lt_of_overtakes {ending a b : String} (h : Overtakes ending a b) : a < b := by
  obtain ⟨rest, rfl, hbefore⟩ := h
  have hne : rest.toList ≠ [] := by
    intro hnil
    obtain rfl : rest = "" := by simpa using hnil
    rw [String.empty_append] at hbefore
    exact String.lt_irrefl ending hbefore
  obtain ⟨c, cs, hrest⟩ := List.exists_cons_of_ne_nil hne
  have hlonger := (append_lt_append_left_iff a.toList [] rest.toList).2 (by simp [hrest])
  rw [List.append_nil] at hlonger
  rwa [String.lt_iff, String.toList_append]

/-! ## Sorted texts -/

/-- What holds of the texts of a sorted list in their order holds of any two of them. -/
theorem pairwise_iff_of_sorted {names : List String} (hsorted : names.Pairwise (· < ·))
    {R : String → String → Prop} :
    names.Pairwise R ↔ ∀ a ∈ names, ∀ b ∈ names, a < b → R a b := by
  constructor
  · intro hR
    have hboth : names.Pairwise fun a b => (a < b → R a b) ∧ (b < a → R b a) :=
      hsorted.imp₂ (fun a b hlt h => ⟨fun _ => h, fun hgt => absurd hgt (String.lt_asymm hlt)⟩) hR
    intro a ha b hb
    have hsymm : Std.Symm fun a b : String => (a < b → R a b) ∧ (b < a → R b a) :=
      ⟨fun _ _ h => ⟨h.2, h.1⟩⟩
    have hrefl : ∀ a ∈ names, (a < a → R a a) ∧ (a < a → R a a) := fun a _ =>
      ⟨fun hlt => absurd hlt (String.lt_irrefl a), fun hlt => absurd hlt (String.lt_irrefl a)⟩
    exact (hboth.forall_of_forall hrefl ha hb).1
  · intro hall
    exact hsorted.imp_of_mem fun ha hb hlt => hall _ ha _ hb hlt

end Text

namespace ModuleTable

variable {t : ModuleTable β} {directory : Path}

/-- What a module's name is followed by in its path. -/
def linkedEnding : String := "." ++ linkedExtension

/-- There are two modules whose names, with the ending, change places. -/
def Overtaken (t : ModuleTable β) : Prop :=
  ∃ m ∈ t.modules, ∃ m' ∈ t.modules, Text.Overtakes linkedEnding m.name m'.name

theorem isStem_of_mem_names (hstems : ∀ m ∈ t.modules, Path.IsStem m.name) {name : String}
    (hname : name ∈ t.names) : Path.IsStem name := by
  obtain ⟨m, hm, rfl⟩ := List.mem_map.1 (List.mem_mergeSort.1 hname)
  exact hstems m hm

/-- **The paths are in order exactly where no name overtakes another.** -/
theorem paths_increasing_iff (hnodup : (t.modules.map (·.name)).Nodup)
    (hstems : ∀ m ∈ t.modules, Path.IsStem m.name) (directory : Path) :
    (t.paths directory).Pairwise Path.Before ↔ ¬ t.Overtaken := by
  have hsorted : t.names.Pairwise (· < ·) := Text.pairwise_lt_sort hnodup
  have hmem : ∀ name, name ∈ t.names ↔ ∃ m ∈ t.modules, m.name = name := fun name =>
    List.mem_mergeSort.trans List.mem_map
  rw [paths, List.pairwise_map, Text.pairwise_iff_of_sorted hsorted]
  have hpair : ∀ a ∈ t.names, ∀ b ∈ t.names, a < b →
      ((directory.join (a ++ "." ++ linkedExtension)).Before
        (directory.join (b ++ "." ++ linkedExtension)) ↔ ¬ Text.Overtakes linkedEnding a b) := by
    intro a ha b hb hlt
    have hname := (isStem_of_mem_names hstems ha).splits isExtension_linked
    have hother := (isStem_of_mem_names hstems hb).splits isExtension_linked
    rw [Path.before_join_iff hname.isName hother.isName, String.append_assoc, String.append_assoc]
    exact Text.append_lt_append_iff hlt _
  constructor
  · rintro hall ⟨m, hm, m', hm', hovertakes⟩
    have ha := (hmem m.name).2 ⟨m, hm, rfl⟩
    have hb := (hmem m'.name).2 ⟨m', hm', rfl⟩
    have hlt : m.name < m'.name := Text.lt_of_overtakes hovertakes
    exact (hpair _ ha _ hb hlt).1 (hall _ ha _ hb hlt) hovertakes
  · intro hno a ha b hb hlt
    obtain ⟨m, hm, rfl⟩ := (hmem a).1 ha
    obtain ⟨m', hm', rfl⟩ := (hmem b).1 hb
    exact (hpair _ ha _ hb hlt).2 fun hovertakes => hno ⟨m, hm, m', hm', hovertakes⟩

/-! ## A directory with the same files -/

theorem nodup_fileNames (hnodup : (t.modules.map (·.name)).Nodup) :
    (t.modules.map (·.fileName)).Nodup := by
  refine List.Nodup.map_on (fun m hm m' hm' hsame => ?_) hnodup.of_map
  have hnames : m.name = m'.name := by
    simpa [Declaration.fileName, ← String.toList_inj] using hsame
  exact List.inj_on_of_nodup_map hnodup hm hm' hnames

/-- A module's path has the extension that is looked for. -/
theorem hasExtension_path {m : Declaration β} (hstem : Path.IsStem m.name) (directory : Path) :
    (m.path directory).hasExtension (ModuleSource.linked t).extensions = true := by
  have hextension : (m.path directory).extension? = some linkedExtension :=
    (hstem.splits isExtension_linked).extension?_join
  simp [Path.hasExtension, hextension, ModuleSource.extensions]

theorem isName_fileName {m : Declaration β} (hstem : Path.IsStem m.name) :
    Path.IsName m.fileName :=
  (hstem.splits isExtension_linked).isName

/-- What is found in a directory that has a file for each linked module and nothing else. -/
structure Discovers (t : ModuleTable β) (files : FileTree (Library β)) (directory : Path)
    (found : List Path) : Prop where
  discovered : discoverModules files (ModuleSource.linked t).extensions directory = .ok found
  perm : found.Perm (t.paths directory)
  increasing : found.Pairwise Path.Before
  /-- It is what the table itself lists where no name overtakes another. -/
  same_iff : found = t.paths directory ↔ ¬ t.Overtaken
  /-- Loading the directory is loading these paths. -/
  loads : ∀ (l : Loader β) gateOpen s options, l.source = .linked t → s.files = files →
    l.loadDirectory gateOpen s options directory = .ok (l.loadPaths gateOpen s options found)

theorem discovers {files : FileTree (Library β)} {place : Location}
    (hnodup : (t.modules.map (·.name)).Nodup) (hstems : ∀ m ∈ t.modules, Path.IsStem m.name)
    (hplace : files.locate directory = some place) (hdirectory : files.isDirectory place = true)
    (hchildren : (files.children place).Perm (t.modules.map (·.fileName))) :
    ∃ found, t.Discovers files directory found := by
  have hfile : ∀ file ∈ files.children place, ∃ m ∈ t.modules, m.fileName = file := fun file hmem =>
    List.mem_map.1 (hchildren.mem_iff.1 hmem)
  have hnames : ∀ file ∈ files.children place, Path.IsName file := by
    intro file hmem
    obtain ⟨m, hm, rfl⟩ := hfile file hmem
    exact isName_fileName (hstems m hm)
  have hknown : ((files.children place).map directory.join).filter
      (·.hasExtension (ModuleSource.linked t).extensions) =
        (files.children place).map directory.join := by
    refine List.filter_eq_self.2 fun p hp => ?_
    obtain ⟨file, hmem, rfl⟩ := List.mem_map.1 hp
    obtain ⟨m, hm, rfl⟩ := hfile file hmem
    exact hasExtension_path (hstems m hm) directory
  have hdiscovered : discoverModules files (ModuleSource.linked t).extensions directory =
      .ok (((files.children place).map directory.join).mergeSort Path.le) := by
    simp only [discoverModules, hplace, hdirectory, if_true, hknown]
  have hperm : (((files.children place).map directory.join).mergeSort Path.le).Perm
      (t.paths directory) := by
    refine ((List.mergeSort_perm _ _).trans (hchildren.map directory.join)).trans ?_
    rw [List.map_map]
    exact (t.paths_perm directory).symm
  have hincreasing : (((files.children place).map directory.join).mergeSort Path.le).Pairwise
      Path.Before :=
    Path.pairwise_before_sort (hchildren.nodup_iff.2 (nodup_fileNames hnodup)) hnames
  refine ⟨_, hdiscovered, hperm, hincreasing, ?_, fun l gateOpen s options hsource hs => ?_⟩
  · rw [← paths_increasing_iff hnodup hstems directory]
    refine ⟨fun hsame => hsame ▸ hincreasing, fun hpaths => ?_⟩
    exact hperm.eq_of_pairwise (fun _ _ _ _ h h' => absurd h' h.asymm) hincreasing hpaths
  · rw [Loader.loadDirectory, hsource, hs, hdiscovered]
    rfl

end ModuleTable

/-- **The order of linked modules.** For every table of modules that files can be named after, and
every directory: the paths of the modules are in order exactly where no name is another one with
something behind it that comes before the extension; and where the directory has a file for each of
them and nothing else, the same files are found in it, in order, so they are found as the table
lists them exactly under the same condition. -/
theorem linked_paths_increasing_iff (ds : List (Declaration β))
    (hstems : ∀ m ∈ (ModuleTable.ofList ds).modules, Path.IsStem m.name) (directory : Path) :
    (((ModuleTable.ofList ds).paths directory).Pairwise Path.Before ↔
      ¬ (ModuleTable.ofList ds).Overtaken) ∧
    ∀ (files : FileTree (Library β)) (place : Location), files.locate directory = some place →
      files.isDirectory place = true →
      (files.children place).Perm ((ModuleTable.ofList ds).modules.map (·.fileName)) →
      ∃ found, (ModuleTable.ofList ds).Discovers files directory found :=
  ⟨ModuleTable.paths_increasing_iff (ModuleTable.nodup_ofList ds) hstems directory,
    fun _ _ hplace hdirectory hchildren =>
      ModuleTable.discovers (ModuleTable.nodup_ofList ds) hstems hplace hdirectory hchildren⟩

/-- Two modules, one with a suffix to the other's name. -/
def suffixedNames : List (Declaration Unit) :=
  ["tide", "tide-tables"].map fun name => ⟨hostAbi, name, "1.0.0", [], [], []⟩

/-- Their files in a directory. -/
def suffixedFiles : FileTree (Library Unit) :=
  ⟨[(⟨.above 0, ["mods"]⟩, .directory),
    (⟨.above 0, ["mods", "tide-tables.module"]⟩, .text ""),
    (⟨.above 0, ["mods", "tide.module"]⟩, .text "")]⟩

theorem linked_paths_increasing_iff_suffixedNames :
    (∀ m ∈ (ModuleTable.ofList suffixedNames).modules, Path.IsStem m.name) ∧
    (ModuleTable.ofList suffixedNames).Overtaken ∧
    ∃ found, (ModuleTable.ofList suffixedNames).Discovers suffixedFiles ⟨"mods"⟩ found ∧
      found ≠ (ModuleTable.ofList suffixedNames).paths ⟨"mods"⟩ := by
  have hnames : ∀ m ∈ (ModuleTable.ofList suffixedNames).modules,
      m.name ≠ "" ∧ '/' ∉ m.name.toList := by
    decide +kernel
  have hstems : ∀ m ∈ (ModuleTable.ofList suffixedNames).modules, Path.IsStem m.name :=
    fun m hm => ⟨(hnames m hm).1, (hnames m hm).2⟩
  have hovertaken : (ModuleTable.ofList suffixedNames).Overtaken :=
    ⟨_, List.mem_cons_self, _, List.mem_cons_of_mem _ List.mem_cons_self, "-tables", rfl,
      by decide +kernel⟩
  obtain ⟨found, hfound⟩ := (linked_paths_increasing_iff suffixedNames hstems ⟨"mods"⟩).2
    suffixedFiles ⟨.above 0, ["mods"]⟩ (by decide +kernel) (by decide +kernel) (by decide +kernel)
  exact ⟨hstems, hovertaken, found, hfound, fun hsame => hfound.same_iff.1 hsame hovertaken⟩

/-- The table lists the shorter name first, and the directory the longer one. -/
theorem suffixedNames_not_increasing :
    ¬ ((ModuleTable.ofList suffixedNames).paths ⟨"mods"⟩).Pairwise Path.Before ∧
    (ModuleTable.ofList suffixedNames).paths ⟨"mods"⟩ =
      [⟨"mods/tide.module"⟩, ⟨"mods/tide-tables.module"⟩] ∧
    discoverModules suffixedFiles
      (ModuleSource.linked (ModuleTable.ofList suffixedNames)).extensions ⟨"mods"⟩ =
      .ok [⟨"mods/tide-tables.module"⟩, ⟨"mods/tide.module"⟩] := by
  have hpaths : (ModuleTable.ofList suffixedNames).paths ⟨"mods"⟩ =
      [⟨"mods/tide.module"⟩, ⟨"mods/tide-tables.module"⟩] := by
    have hnames : (ModuleTable.ofList suffixedNames).names = ["tide", "tide-tables"] :=
      List.mergeSort_of_pairwise (by decide +kernel)
    rw [ModuleTable.paths, hnames]
    decide +kernel
  refine ⟨?_, hpaths, ?_⟩
  · rw [hpaths]
    unfold Path.Before
    decide +kernel
  · have hsorted : [Path.mk "mods/tide-tables.module", ⟨"mods/tide.module"⟩].mergeSort Path.le =
        [⟨"mods/tide-tables.module"⟩, ⟨"mods/tide.module"⟩] :=
      List.mergeSort_of_pairwise (by decide +kernel)
    exact congrArg Except.ok hsorted

end ModularHost
