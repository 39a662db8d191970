import Mathlib.Data.List.Induction
import Mathlib.Data.List.Nodup
import ModularHost.Proofs.FileName
import ModularHost.Proofs.Module.Whitelist
/-!
# The paths of linked modules

A linked module needs no file. A path is made up for each, of a directory and the module's name,
and the table is asked what the path stands for: it takes the extension off again and goes by the
name, and only where nothing has that name by what follows the library mark
(`ModuleTable.standsFor_findForPath`). So each path finds the module it was made for, though the
table may have both names, and loading all paths loads each module once
(`linked_paths_found`).
-/


namespace ModularHost

variable {β : Type}

/-- What a file name can have before its extension. -/
structure Path.IsStem (name : String) : Prop where
  ne_empty : name ≠ ""
  no_slash : '/' ∉ name.toList

/-- What it can have as its extension. -/
structure Path.IsExtension (extension : String) : Prop where
  ne_empty : extension ≠ ""
  no_dot : '.' ∉ extension.toList
  no_slash : '/' ∉ extension.toList

theorem Path.IsStem.splits {name extension : String} (h : IsStem name)
    (hextension : IsExtension extension) : Splits name extension where
  stem_ne := h.ne_empty
  extension_ne := hextension.ne_empty
  no_slash := by simp [h.no_slash, hextension.no_slash]
  no_dot := hextension.no_dot

theorem ModuleTable.isExtension_linked : Path.IsExtension linkedExtension :=
  ⟨by decide, by decide, by decide⟩

/-- The name a module's file has. -/
def Declaration.fileName (m : Declaration β) : String :=
  m.name ++ "." ++ ModuleTable.linkedExtension

/-- The path made up for a module in a directory. -/
def Declaration.path (m : Declaration β) (directory : Path) : Path := directory.join m.fileName

theorem withoutMark?_eq_some_iff {name rest : String} :
    withoutMark? name = some rest ↔ name = libraryMark ++ rest := by
  unfold withoutMark?
  constructor
  · intro h
    split at h
    · rename_i hmark
      obtain ⟨tail, htail⟩ := List.isPrefixOf_iff_prefix.1 hmark
      have hdrop : name.toList.drop libraryMark.length = tail := by
        rw [← htail]
        exact List.drop_left
      rw [hdrop, Option.some.injEq] at h
      rw [← String.toList_inj, String.toList_append, ← htail, ← h, String.toList_ofList]
    · cases h
  · rintro rfl
    have hmark : libraryMark.toList.isPrefixOf (libraryMark ++ rest).toList = true := by
      rw [List.isPrefixOf_iff_prefix, String.toList_append]
      exact List.prefix_append _ _
    rw [if_pos hmark, String.toList_append]
    have hdrop : (libraryMark.toList ++ rest.toList).drop libraryMark.length = rest.toList :=
      List.drop_left
    rw [hdrop, String.ofList_toList]

namespace ModuleTable

variable {t : ModuleTable β} {directory : Path} {m : Declaration β}

/-! ## The table -/

/-- A module is found under its name from then on, and any other as before. -/
theorem get?_insert (t : ModuleTable β) (m : Declaration β) (name : String) :
    (t.insert m).get? name = if name = m.name then some m else t.get? name := by
  by_cases hname : name = m.name
  · have hgone : (t.modules.filter (·.name != m.name)).find? (·.name == m.name) = none := by
      rw [List.find?_eq_none]
      intro d hd
      simpa using (List.mem_filter.1 hd).2
    simp [get?, insert, List.find?_append, hname, hgone]
  · have hkept : (t.modules.filter (·.name != m.name)).find? (·.name == name) =
        t.modules.find? (·.name == name) := by
      rw [List.find?_filter]
      congr 1
      funext d
      by_cases hd : d.name = name <;> simp [hd, hname]
    simp [get?, insert, List.find?_append, hkept, hname, Ne.symm hname]

/-- **The module of a name is the last that was added under it.** -/
theorem get?_ofList (ds : List (Declaration β)) (name : String) :
    (ofList ds).get? name = ds.reverse.find? (·.name == name) := by
  induction ds using List.reverseRecOn with
  | nil => rfl
  | append_singleton ds m ih =>
    rw [ofList, List.foldl_append, List.reverse_append]
    simp only [List.foldl_cons, List.foldl_nil, List.reverse_singleton, List.singleton_append,
      List.find?_cons]
    rw [get?_insert, ← ofList, ih]
    by_cases hname : name = m.name
    · simp [hname]
    · have hother : (m.name == name) = false := by simpa using Ne.symm hname
      simp [hname, hother]

/-- No two linked modules share a name. -/
theorem nodup_ofList (ds : List (Declaration β)) :
    ((ofList ds).modules.map (·.name)).Nodup := by
  induction ds using List.reverseRecOn with
  | nil => exact List.nodup_nil
  | append_singleton ds m ih =>
    rw [ofList, List.foldl_append, ← ofList]
    simp only [List.foldl_cons, List.foldl_nil, insert, List.map_append]
    refine List.nodup_append.2 ⟨ih.sublist (List.filter_sublist.map _),
      List.nodup_singleton _, ?_⟩
    intro name hname other hother
    obtain ⟨d, hd, rfl⟩ := List.mem_map.1 hname
    rw [List.map_singleton, List.mem_singleton] at hother
    rw [hother]
    simpa using (List.mem_filter.1 hd).2

theorem get?_of_mem (hnodup : (t.modules.map (·.name)).Nodup) (hm : m ∈ t.modules) :
    t.get? m.name = some m := by
  obtain ⟨d, hd⟩ : ∃ d, t.get? m.name = some d :=
    Option.isSome_iff_exists.1 (List.find?_isSome.2 ⟨m, hm, by simp⟩)
  have hsame : d = m := List.inj_on_of_nodup_map hnodup (List.mem_of_find?_eq_some hd) hm
    (name_of_get? hd)
  rw [hd, hsame]

/-! ## What a path stands for -/

/-- What the table has for a name: the module of that name, or else the one of what follows the
library mark. -/
inductive StandsFor (t : ModuleTable β) (name : String) : Option (Declaration β) → Prop
  | named {m : Declaration β} : t.get? name = some m → StandsFor t name (some m)
  | marked {rest : String} {m : Declaration β} : t.get? name = none → name = libraryMark ++ rest →
    t.get? rest = some m → StandsFor t name (some m)
  | nothing : t.get? name = none → (∀ rest, name = libraryMark ++ rest → t.get? rest = none) →
    StandsFor t name none

theorem findForPath_of_stem {p : Path} {name : String} (h : p.stem? = some name) :
    t.StandsFor name (t.findForPath p) := by
  rw [findForPath, h, Option.bind_some]
  cases hnamed : t.get? name with
  | some m => exact .named hnamed
  | none =>
    rw [Option.none_or]
    cases hmark : withoutMark? name with
    | none =>
      refine .nothing hnamed fun rest hrest => ?_
      rw [withoutMark?_eq_some_iff.2 hrest] at hmark
      cases hmark
    | some rest =>
      have hrest := withoutMark?_eq_some_iff.1 hmark
      rw [Option.bind_some]
      cases hget : t.get? rest with
      | some m => exact .marked hnamed hrest hget
      | none =>
        refine .nothing hnamed fun other hother => ?_
        rw [withoutMark?_eq_some_iff.2 hother] at hmark
        cases hmark
        exact hget

/-- **A path stands for what the table has for its stem**, whatever its directory and its extension
are. -/
theorem standsFor_findForPath (t : ModuleTable β) (directory : Path) {name extension : String}
    (h : Path.IsStem name) (hextension : Path.IsExtension extension) :
    t.StandsFor name (t.findForPath (directory.join (name ++ "." ++ extension))) :=
  findForPath_of_stem (h.splits hextension).stem?_join

/-- **A module's own path finds it.** -/
theorem findForPath_path (hnodup : (t.modules.map (·.name)).Nodup) (hm : m ∈ t.modules)
    (hstem : Path.IsStem m.name) : t.findForPath (m.path directory) = some m := by
  have hget := get?_of_mem hnodup hm
  have hname : (m.path directory).stem? = some m.name :=
    (hstem.splits isExtension_linked).stem?_join
  rw [findForPath, hname, Option.bind_some, hget, Option.some_or]

/-! ## The paths of all modules -/

theorem paths_perm (t : ModuleTable β) (directory : Path) :
    (t.paths directory).Perm (t.modules.map (·.path directory)) := by
  have hnames := (List.mergeSort_perm (t.modules.map (·.name)) fun a b => !decide (b < a)).map
    fun name => directory.join (name ++ "." ++ linkedExtension)
  rw [List.map_map] at hnames
  exact hnames

theorem parts_path (hstem : Path.IsStem m.name) :
    (m.path directory).parts =
      directory.parts ++ [.named m.fileName.toList] :=
  (hstem.splits isExtension_linked).parts_join

/-- The paths of all modules, of which each is one module's own. -/
structure PathsFind (t : ModuleTable β) (directory : Path) : Prop where
  /-- There is one path for each linked module, -/
  perm : (t.paths directory).Perm (t.modules.map (·.path directory))
  /-- no two of them name the same place, however they are written, -/
  apart : ((t.paths directory).map Path.parts).Nodup
  /-- and each finds the module it was made for. -/
  finds : ∀ m ∈ t.modules, t.findForPath (m.path directory) = some m

theorem pathsFind (hnodup : (t.modules.map (·.name)).Nodup)
    (hstems : ∀ m ∈ t.modules, Path.IsStem m.name) (directory : Path) :
    t.PathsFind directory where
  perm := t.paths_perm directory
  finds m hm := findForPath_path hnodup hm (hstems m hm)
  apart := by
    refine ((t.paths_perm directory).map Path.parts).nodup_iff.2 ?_
    rw [List.map_map]
    refine List.Nodup.map_on (fun m hm m' hm' hparts => ?_) hnodup.of_map
    simp only [Function.comp_apply, parts_path (hstems m hm), parts_path (hstems m' hm')] at hparts
    -- the last parts are the names with the same extension
    have hnames : m.name = m'.name := by
      simpa [Declaration.fileName, String.toList_inj] using List.append_cancel_left hparts
    exact List.inj_on_of_nodup_map hnodup hm hm' hnames

/-- The loads that are begun for the paths of all modules, and the modules that they are of. -/
structure LoadsEach (t : ModuleTable β) (directory : Path) (l : Loader β) : Prop where
  begun : ∀ gateOpen s options,
    (l.loadPaths gateOpen s options (t.paths directory)).2.1.attempted =
      l.attempted ++ (t.paths directory).filter options.admits
  /-- A whitelist that lists nothing lets all of them through. -/
  all : ∀ options : LoadOptions, options.whitelist = [] →
    (t.paths directory).filter options.admits = t.paths directory
  /-- Each linked module is loaded by one of them. -/
  found : ∀ files linker, ((t.paths directory).map fun p => (l.source.find files linker p).1).Perm
    (t.modules.map .ok)

theorem PathsFind.loadsEach (h : t.PathsFind directory) {l : Loader β}
    (hsource : l.source = .linked t) : t.LoadsEach directory l where
  begun gateOpen s options := Loader.attempted_loadPaths gateOpen options _ l s
  all options hempty := List.filter_eq_self.2 fun p _ => by simp [LoadOptions.admits, hempty]
  found files linker := by
    refine (h.perm.map _).trans (List.Perm.of_eq ?_)
    rw [List.map_map]
    refine List.map_congr_left fun m hm => ?_
    simp [hsource, ModuleSource.find, h.finds m hm]

end ModuleTable

/-- **Every linked module has a path of its own.** For every table, whatever was added to it and in
whatever order, and every directory: the path of a name and an extension stands for the module of
that name, or else for the one of what follows the library mark, or for nothing; and where files can
have the names as their stems, the paths of all modules are one for each and no two the same, each
finds its module, and a loader that is given them loads each module once. -/
theorem linked_paths_found (ds : List (Declaration β)) (directory : Path) :
    (∀ name, (ModuleTable.ofList ds).get? name = ds.reverse.find? (·.name == name)) ∧
    (∀ name extension, Path.IsStem name → Path.IsExtension extension →
      (ModuleTable.ofList ds).StandsFor name
        ((ModuleTable.ofList ds).findForPath (directory.join (name ++ "." ++ extension)))) ∧
    ((∀ m ∈ (ModuleTable.ofList ds).modules, Path.IsStem m.name) →
      (ModuleTable.ofList ds).PathsFind directory ∧
      ∀ l : Loader β, l.source = .linked (ModuleTable.ofList ds) →
        (ModuleTable.ofList ds).LoadsEach directory l) := by
  refine ⟨ModuleTable.get?_ofList ds, fun name extension hname hextension => ?_, fun hstems => ?_⟩
  · exact ModuleTable.standsFor_findForPath _ directory hname hextension
  · have hfind := ModuleTable.pathsFind (ModuleTable.nodup_ofList ds) hstems directory
    exact ⟨hfind, fun l hsource => hfind.loadsEach hsource⟩

/-- Modules whose names differ by the library mark, or are nothing but dots. -/
def markedNames : List (Declaration Unit) :=
  ["foo", "libfoo", "lib", "..", "foo.module"].map fun name => ⟨hostAbi, name, "1.0.0", [], [], []⟩

theorem linked_paths_found_markedNames :
    (∀ m ∈ (ModuleTable.ofList markedNames).modules, Path.IsStem m.name) ∧
    (ModuleTable.ofList markedNames).PathsFind ⟨"mods"⟩ ∧
    (ModuleTable.ofList markedNames).LoadsEach ⟨"mods"⟩
      (.new (.linked (ModuleTable.ofList markedNames))) := by
  have hnames : ∀ m ∈ (ModuleTable.ofList markedNames).modules,
      m.name ≠ "" ∧ '/' ∉ m.name.toList := by
    decide +kernel
  have hstems : ∀ m ∈ (ModuleTable.ofList markedNames).modules, Path.IsStem m.name := fun m hm =>
    ⟨(hnames m hm).1, (hnames m hm).2⟩
  obtain ⟨hfind, hloads⟩ := (linked_paths_found markedNames ⟨"mods"⟩).2.2 hstems
  exact ⟨hstems, hfind, hloads _ rfl⟩

end ModularHost
