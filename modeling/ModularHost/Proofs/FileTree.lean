import Mathlib.Data.List.Nodup
import ModularHost.FileTree
import ModularHost.Proofs.FileName
/-!
# Directories and what is in them

A tree has one thing at each of its places, under a name that an entry of a directory can have
(`FileTree.WellFormed`); making directories, planting files and writing texts keeps it so. The
children of a directory are then its entries, each once (`FileTree.mem_children_iff`), and the path
of an entry's name leads from the directory to that entry (`FileTree.find?_join`).
-/


namespace ModularHost

variable {γ : Type}

/-- A step by a name leads to the entry of that name. -/
theorem Path.IsName.step_eq {name : String} (h : IsName name) (l : Location) :
    FileTree.step l name.toList = l.child name := by
  rw [FileTree.step, if_neg (by simp [h.toList_ne_here, h.ne_empty]), if_neg h.toList_ne_parent,
    String.ofList_toList]

/-! ## Places -/

namespace Location

variable {l directory : Location} {name : String}

@[simp] theorem names_child : (l.child name).names = l.names ++ [name] := rfl

theorem child_ne_nil : (l.child name).names ≠ [] := by simp

/-- Every step downwards to a place is by a name. -/
def Named (l : Location) : Prop := ∀ name ∈ l.names, Path.IsName name

theorem childName?_eq_some_iff : childName? directory l = some name ↔ l = directory.child name := by
  unfold childName?
  constructor
  · intro h
    split at h
    · split at h
      · cases h
        exact Eq.symm ‹_›
      · cases h
    · cases h
  · rintro rfl
    simp [child]

theorem named_start (p : Path) : (start p).Named := by
  unfold start
  split <;> simp [Named, here]

/-- A piece between slashes leads from a place by names to another. -/
theorem Named.step (h : l.Named) {piece : List Char} (hpiece : '/' ∉ piece) :
    (FileTree.step l piece).Named := by
  unfold FileTree.step
  split
  · exact h
  · rename_i hdot
    rw [not_or] at hdot
    split
    · intro name hname
      unfold parent at hname
      split at hname
      · cases hname
      · exact h name (List.dropLast_subset _ hname)
    · rename_i hdots
      intro name hname
      rcases List.mem_append.1 hname with hname | hname
      · exact h name hname
      · rw [List.mem_singleton.1 hname]
        exact ⟨by simpa using hdot.1, by simpa using hpiece,
          fun heq => hdot.2 (by simpa using congrArg String.toList heq),
          fun heq => hdots (by simpa using congrArg String.toList heq)⟩

end Location

namespace Path

/-- There is no slash in what stands between slashes. -/
theorem no_slash_of_mem_splitSlashes {piece : List Char} (cs : List Char)
    (h : piece ∈ splitSlashes cs) : '/' ∉ piece := by
  induction cs generalizing piece with
  | nil => simp_all [splitSlashes]
  | cons c cs ih =>
    rw [splitSlashes] at h
    split at h
    · rcases List.mem_cons.1 h with rfl | h
      · exact List.not_mem_nil
      · exact ih h
    · rename_i hc
      split at h
      · rw [List.mem_singleton.1 h]
        simpa using Ne.symm hc
      · rename_i first rest hsplit
        rw [hsplit] at ih
        rcases List.mem_cons.1 h with rfl | h
        · simpa [Ne.symm hc] using ih List.mem_cons_self
        · exact ih (List.mem_cons_of_mem _ h)

end Path

namespace FileTree

variable {t : FileTree γ} {l directory : Location} {name : String} {node : FileNode γ}

/-! ## What a tree is -/

/-- **A file tree**: at each place one thing, and every place below an anchor reached by names. -/
structure WellFormed (t : FileTree γ) : Prop where
  apart : (t.entries.map (·.1)).Nodup
  named : ∀ e ∈ t.entries, e.1.Named

theorem wellFormed_empty : (empty : FileTree γ).WellFormed where
  apart := List.nodup_nil
  named _ h := by cases h

/-- Something is put in the place of what stood there. -/
theorem WellFormed.put (h : t.WellFormed) (hl : l.Named) (node : FileNode γ) :
    (t.put l node).WellFormed where
  apart := by
    simp only [FileTree.put, List.map_append, List.map_cons, List.map_nil]
    refine List.nodup_append.2 ⟨h.apart.sublist (List.filter_sublist.map _),
      List.nodup_singleton _, ?_⟩
    intro place hplace other hother
    obtain ⟨e, he, rfl⟩ := List.mem_map.1 hplace
    rw [List.mem_singleton.1 hother]
    simpa using (List.mem_filter.1 he).2
  named e he := by
    rcases List.mem_append.1 he with he | he
    · exact h.named e (List.mem_filter.1 he).1
    · rw [List.mem_singleton.1 he]
      exact hl

theorem WellFormed.makeWay {pieces : List (List Char)} (hpieces : ∀ piece ∈ pieces, '/' ∉ piece) :
    ∀ {t : FileTree γ} {l : Location}, t.WellFormed → l.Named →
      (t.makeWay l pieces).WellFormed := by
  induction pieces with
  | nil => exact fun h _ => h
  | cons piece rest ih =>
    intro t l h hl
    obtain ⟨hpiece, hrest⟩ := List.forall_mem_cons.1 hpieces
    have hnext := hl.step hpiece
    rw [FileTree.makeWay]
    split
    · exact ih hrest h hnext
    · exact ih hrest (h.put hnext _) hnext

theorem no_slash_pieces {p : Path} : ∀ piece ∈ p.pieces, '/' ∉ piece :=
  fun _ => Path.no_slash_of_mem_splitSlashes _

theorem named_place (p : Path) : (place p).Named := by
  have hfold : ∀ (pieces : List (List Char)) (l : Location), (∀ piece ∈ pieces, '/' ∉ piece) →
      l.Named → (pieces.foldl step l).Named := by
    intro pieces
    induction pieces with
    | nil => exact fun _ _ hl => hl
    | cons piece rest ih =>
      intro l hpieces hl
      obtain ⟨hpiece, hrest⟩ := List.forall_mem_cons.1 hpieces
      exact ih _ hrest (hl.step hpiece)
  exact hfold _ _ no_slash_pieces (Location.named_start p)

theorem named_of_walk {pieces : List (List Char)} {place : Location}
    (hpieces : ∀ piece ∈ pieces, '/' ∉ piece) :
    ∀ {l : Location}, l.Named → t.walk l pieces = some place → place.Named := by
  induction pieces with
  | nil =>
    intro l hl h
    cases h
    exact hl
  | cons piece rest ih =>
    intro l hl h
    obtain ⟨hpiece, hrest⟩ := List.forall_mem_cons.1 hpieces
    rw [walk] at h
    split at h
    · exact ih hrest (hl.step hpiece) h
    · cases h

/-- **Whatever is planted, and wherever, a tree stays a tree.** -/
theorem WellFormed.plant (h : t.WellFormed) (p : Path) (node : FileNode γ) :
    (t.plant p node).WellFormed := by
  have hway : (t.makeParents p).WellFormed :=
    WellFormed.makeWay (fun piece hpiece => no_slash_pieces piece (List.dropLast_subset _ hpiece))
      h (Location.named_start p)
  exact hway.put (named_place p) node

/-- A text that has been written stands in a directory that was there, where no directory was. -/
theorem exists_of_write? {p : Path} {content : String} {t' : FileTree γ}
    (h : t.write? p content = some t') : ∃ directory piece,
      isNameable p = true ∧ p.pieces = p.pieces.dropLast ++ [piece] ∧
      t.walk (.start p) p.pieces.dropLast = some directory ∧ t.isDirectory directory = true ∧
      step directory piece = directory.child (String.ofList piece) ∧
      t.isDirectory (step directory piece) = false ∧
      t' = t.put (step directory piece) (.text content) := by
  unfold FileTree.write? at h
  split at h
  · cases h
  rename_i hnameable
  split at h
  · cases h
  rename_i piece hlast
  split at h
  · cases h
  rename_i hpiece
  obtain ⟨directory, hwalk, h⟩ := Option.bind_eq_some_iff.1 h
  split at h
  · cases h
  rename_i hdirectory
  dsimp only at h
  split at h
  · cases h
  rename_i hfree
  cases h
  rw [not_or, not_or] at hpiece
  have hstep : step directory piece = directory.child (String.ofList piece) := by
    rw [step, if_neg (by simp [hpiece.1, hpiece.2.1]), if_neg hpiece.2.2]
  refine ⟨directory, piece, by simpa using hnameable, ?_, hwalk, by simpa using hdirectory, hstep,
    ?_, ?_⟩
  · exact (List.dropLast_append_getLast? piece hlast).symm
  · rw [hstep]
    simpa using hfree
  · rw [hstep]

/-- **So does a tree in which a text is written.** -/
theorem WellFormed.write? (h : t.WellFormed) {p : Path} {content : String} {t' : FileTree γ}
    (hwrite : t.write? p content = some t') : t'.WellFormed := by
  obtain ⟨directory, piece, -, hpieces, hwalk, -, -, -, rfl⟩ := exists_of_write? hwrite
  have hslash : '/' ∉ piece := no_slash_pieces piece (by rw [hpieces]; simp)
  have hdirectory : directory.Named := named_of_walk
    (fun piece hpiece => no_slash_pieces piece (List.dropLast_subset _ hpiece))
    (Location.named_start p) hwalk
  exact h.put (hdirectory.step hslash) _

/-! ## What a directory holds -/

/-- What stands at a place is the entry of the place. -/
theorem WellFormed.get?_eq_some_iff (h : t.WellFormed) (hl : l.names ≠ []) :
    t.get? l = some node ↔ (l, node) ∈ t.entries := by
  rw [get?, if_neg (by simpa using hl), Option.map_eq_some_iff]
  constructor
  · rintro ⟨e, he, rfl⟩
    have hplace : e.1 = l := by simpa using List.find?_some he
    rw [← hplace]
    exact List.mem_of_find?_eq_some he
  · intro hmem
    obtain ⟨e, he⟩ : ∃ e, t.entries.find? (·.1 = l) = some e :=
      Option.isSome_iff_exists.1 (List.find?_isSome.2 ⟨_, hmem, by simp⟩)
    have hplace : e.1 = l := by simpa using List.find?_some he
    have hsame := List.inj_on_of_nodup_map h.apart (List.mem_of_find?_eq_some he) hmem hplace
    exact ⟨e, he, by rw [hsame]⟩

/-- **The children of a directory are the names of its entries.** -/
theorem mem_children_iff (h : t.WellFormed) :
    name ∈ t.children l ↔ ∃ node, t.get? (l.child name) = some node := by
  simp only [children, List.mem_filterMap, Location.childName?_eq_some_iff,
    h.get?_eq_some_iff Location.child_ne_nil]
  constructor
  · rintro ⟨⟨place, node⟩, he, rfl⟩
    exact ⟨node, he⟩
  · rintro ⟨node, he⟩
    exact ⟨_, he, rfl⟩

theorem nodup_children (h : t.WellFormed) (l : Location) : (t.children l).Nodup := by
  have hplaces : t.children l = (t.entries.map (·.1)).filterMap l.childName? := by
    rw [children, List.filterMap_map]
    rfl
  -- a place is a child of a directory under one name only
  rw [hplaces]
  refine h.apart.filterMap fun place other name hplace hother => ?_
  rw [Option.mem_def, Location.childName?_eq_some_iff] at hplace hother
  rw [hplace, hother]

theorem isName_of_mem_children (h : t.WellFormed) (hname : name ∈ t.children l) :
    Path.IsName name := by
  obtain ⟨node, hnode⟩ := (mem_children_iff h).1 hname
  have hmem := (h.get?_eq_some_iff Location.child_ne_nil).1 hnode
  exact h.named _ hmem name (by simp)

/-! ## Where paths lead -/

/-- Whatever is reached is there. -/
theorem isSome_get?_of_walk {pieces : List (List Char)} {place : Location} :
    ∀ {l : Location}, (t.get? l).isSome = true → t.walk l pieces = some place →
      (t.get? place).isSome = true := by
  induction pieces with
  | nil =>
    intro l hl h
    cases h
    exact hl
  | cons piece rest ih =>
    intro l _ h
    rw [walk] at h
    split at h
    · rename_i hstep
      rw [Bool.and_eq_true] at hstep
      exact ih hstep.2 h
    · cases h

theorem isSome_get?_start (t : FileTree γ) (p : Path) : (t.get? (.start p)).isSome = true := by
  unfold Location.start
  split <;> rfl

/-- A path leads nowhere exactly if nothing is there. -/
theorem exists_eq_false_iff {p : Path} : t.exists p = false ↔ t.locate p = none := by
  unfold FileTree.exists find?
  cases hlocate : t.locate p with
  | none => simp
  | some place =>
    have hplace : (t.get? place).isSome = true := by
      unfold locate at hlocate
      split at hlocate
      · exact isSome_get?_of_walk (t.isSome_get?_start p) hlocate
      · cases hlocate
    simp [hplace]

theorem walk_append {front back : List (List Char)} :
    ∀ {l : Location}, t.walk l (front ++ back) = (t.walk l front).bind (t.walk · back) := by
  induction front with
  | nil => exact fun {l} => rfl
  | cons piece rest ih =>
    intro l
    rw [List.cons_append, walk, walk]
    split
    · exact ih
    · rfl

/-- **The path of an entry leads to the entry**, if it is not too long. -/
theorem find?_join {d : Path} (hd : t.locate d = some directory)
    (hdirectory : t.isDirectory directory = true) (hname : Path.IsName name)
    (hnode : t.get? (directory.child name) = some node)
    (hnameable : isNameable (d.join name) = true) : t.find? (d.join name) = some node := by
  have hlocate : t.walk (.start d) d.pieces = some directory := by
    unfold locate at hd
    split at hd
    · exact hd
    · cases hd
  have hstep : t.walk directory [name.toList] = some (directory.child name) := by
    simp [walk, hname.step_eq, hdirectory, hnode]
  rcases d.pieces_join hname.no_slash with ⟨hempty, -⟩ | ⟨front, -, hfront, hpieces, habsolute⟩
  · -- the empty text names no directory
    simp [locate, isNameable, hempty] at hd
  · have hfrontWalk : t.walk (.start d) front = some directory := by
      rcases hfront with heq | heq
      · rwa [heq] at hlocate
      · rw [heq, walk_append] at hlocate
        obtain ⟨l, hl, hlast⟩ := Option.bind_eq_some_iff.1 hlocate
        rw [walk] at hlast
        split at hlast
        · cases hlast
          exact hl
        · cases hlast
    have hstart : Location.start (d.join name) = .start d := by
      rw [Location.start, Location.start, habsolute]
    rw [find?, locate, if_pos hnameable, hstart, hpieces, walk_append, hfrontWalk, Option.bind_some,
      hstep, Option.bind_some, hnode]

/-! ## Where a text has been written -/

/-- What has been put at a place is there, and nothing else has changed. -/
theorem get?_put (hl : l.names ≠ []) (place : Location) :
    (t.put l node).get? place = if place = l then some node else t.get? place := by
  unfold get?
  by_cases hplace : place = l
  · subst hplace
    have hgone : (t.entries.filter (·.1 ≠ place)).find? (·.1 = place) = none := by simp
    rw [if_neg (by simpa using hl), if_pos rfl, put, List.find?_append, hgone]
    simp
  · have hothers : (t.entries.filter (·.1 ≠ l)).find? (·.1 = place) =
        t.entries.find? (·.1 = place) := by
      rw [List.find?_filter]
      refine congrArg (t.entries.find? ·) (funext fun e => ?_)
      by_cases he : e.1 = place
      · simp [he, hplace]
      · simp [he]
    rw [if_neg hplace, put, List.find?_append, hothers]
    simp [Ne.symm hplace]

/-- A text where no directory was is in nobody's way. -/
theorem walk_put {content : String} (hl : l.names ≠ []) (hfree : t.isDirectory l = false)
    {pieces : List (List Char)} {place : Location} :
    ∀ {start : Location}, t.walk start pieces = some place →
      (t.put l (.text content)).walk start pieces = some place := by
  induction pieces with
  | nil => exact fun h => h
  | cons piece rest ih =>
    intro start h
    rw [walk] at h
    split at h
    · rename_i hstep
      rw [Bool.and_eq_true] at hstep
      have hne : start ≠ l := by
        rintro rfl
        rw [hfree] at hstep
        cases hstep.1
      have hdirectory : (t.put l (.text content)).isDirectory start = true := by
        rw [isDirectory, get?_put hl, if_neg hne]
        exact hstep.1
      have hthere : ((t.put l (.text content)).get? (step start piece)).isSome = true := by
        rw [get?_put hl]
        split
        · rfl
        · exact hstep.2
      rw [walk, if_pos (by rw [hdirectory, hthere]; rfl)]
      exact ih h
    · cases h

/-- **A text that has been written is found** under the path it was written to. -/
theorem find?_of_write? {p : Path} {content : String} {t' : FileTree γ}
    (h : t.write? p content = some t') : t'.find? p = some (.text content) := by
  obtain ⟨directory, piece, hnameable, hpieces, hwalk, hdirectory, hstep, hfree, rfl⟩ :=
    exists_of_write? h
  have hl : (FileTree.step directory piece).names ≠ [] := by
    rw [hstep]
    exact Location.child_ne_nil
  have hne : directory ≠ FileTree.step directory piece := by
    intro heq
    rw [← heq, hdirectory] at hfree
    cases hfree
  have hthere : (t.put (FileTree.step directory piece) (.text content)).get?
      (FileTree.step directory piece) = some (.text content) := by
    rw [get?_put hl, if_pos rfl]
  have hstay : (t.put (FileTree.step directory piece) (.text content)).isDirectory directory =
      true := by
    rw [isDirectory, get?_put hl, if_neg hne]
    exact hdirectory
  have hlast : (t.put (FileTree.step directory piece) (.text content)).walk directory [piece] =
      some (FileTree.step directory piece) := by
    simp [walk, hstay, hthere]
  rw [find?, locate, if_pos hnameable, hpieces, walk_append, walk_put hl hfree hwalk,
    Option.bind_some, hlast, Option.bind_some, hthere]

end FileTree
end ModularHost
