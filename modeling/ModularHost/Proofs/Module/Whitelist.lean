import ModularHost.Module.Loader
/-!
# Which modules a whitelist lets through

A whitelist lists names, and a path is let through by its file name alone: the stem or the stem
without the library mark has to be listed. The table decides on its own which of the two spellings
names the module. So a listed module is never left out (`admits_of_mem_whitelist`), and a module
that is not listed is let through when the other spelling of its file is
(`loadPaths_attempts`).
-/


namespace ModularHost

variable {β : Type}

/-- The names that the stem of a path may stand for: itself, and what follows the library mark. -/
def Path.spellings (p : Path) : List String :=
  match p.stem? with
  | none => []
  | some stem => [stem, (withoutMark? stem).getD stem]

/-! ## The two matchers -/

theorem ModuleTable.name_of_get? {t : ModuleTable β} {name : String} {d : Declaration β}
    (h : t.get? name = some d) : d.name = name := by
  simpa using List.find?_some h

/-- The table answers a module of one of the two spellings. -/
theorem ModuleTable.name_mem_spellings {t : ModuleTable β} {path : Path} {m : Declaration β}
    (h : t.findForPath path = some m) : m.name ∈ path.spellings := by
  obtain ⟨stem, hstem, hfind⟩ := Option.bind_eq_some_iff.1 h
  simp only [Path.spellings, hstem, List.mem_cons, List.not_mem_nil, or_false]
  rcases Option.or_eq_some_iff.1 hfind with hget | ⟨-, hget⟩
  · exact .inl (name_of_get? hget)
  · obtain ⟨bare, hbare, hget⟩ := Option.bind_eq_some_iff.1 hget
    exact .inr (by rw [name_of_get? hget, hbare, Option.getD_some])

namespace LoadOptions

variable {o : LoadOptions} {path : Path} {m : Declaration β} {t : ModuleTable β}

/-- A whitelist that is not empty lets a path through for either spelling. -/
theorem admits_iff (hne : o.whitelist ≠ []) :
    o.admits path = true ↔ ∃ name ∈ path.spellings, name ∈ o.whitelist := by
  unfold admits Path.spellings
  rw [if_neg (by simpa using hne)]
  cases path.stem? with
  | none => simp
  | some stem =>
    simp only [List.any_eq_true, Bool.or_eq_true, beq_iff_eq, List.mem_cons, List.not_mem_nil,
      or_false]
    constructor
    · rintro ⟨name, hmem, hname⟩
      exact ⟨name, hname, hmem⟩
    · rintro ⟨name, hname, hmem⟩
      exact ⟨name, hmem, hname⟩

/-- **A listed module is let through**, whichever spelling its file has. -/
theorem admits_of_mem_whitelist (h : t.findForPath path = some m) (hm : m.name ∈ o.whitelist) :
    o.admits path = true :=
  (admits_iff (List.ne_nil_of_mem hm)).2 ⟨m.name, ModuleTable.name_mem_spellings h, hm⟩

/-- A whitelist takes a file for that of another module: it does not list the one the file stands
for, but it does list a spelling of the file. -/
def Misreads (o : LoadOptions) (path : Path) (m : Declaration β) : Prop :=
  m.name ∉ o.whitelist ∧ ∃ other ∈ path.spellings, other ∈ o.whitelist

/-- **The whitelist goes by the module's name exactly where it does not misread the path.** -/
theorem admits_iff_mem_whitelist (hne : o.whitelist ≠ []) (h : t.findForPath path = some m) :
    (o.admits path = true ↔ m.name ∈ o.whitelist) ↔ ¬ o.Misreads path m := by
  rw [Misreads, ← admits_iff hne]
  constructor
  · rintro hiff ⟨hnot, hadmits⟩
    exact hnot (hiff.1 hadmits)
  · intro hno
    refine ⟨fun hadmits => ?_, admits_of_mem_whitelist h⟩
    by_cases hm : m.name ∈ o.whitelist
    · exact hm
    · exact absurd ⟨hm, hadmits⟩ hno

end LoadOptions

/-! ## Loads that are begun -/

namespace Loader

variable {l : Loader β}

/-- The paths of the loads begun so far. -/
def attempted (l : Loader β) : List Path := l.loads.map (·.path)

theorem attempted_begin (l : Loader β) (path : Path) (limit : Option Duration) :
    (l.begin path limit).attempted = l.attempted ++ [path] := by
  simp [attempted, begin]

theorem attempted_update (l : Loader β) (position : Nat) {change : Load β → Load β}
    (h : ∀ load, (change load).path = load.path) :
    (l.update position change).attempted = l.attempted := by
  refine List.ext_getElem? fun i => ?_
  simp only [attempted, update, List.getElem?_map, List.getElem?_modify]
  cases l.loads[i]? with
  | none => rfl
  | some load => by_cases hi : position = i <;> simp [hi, h]

theorem attempted_complete (l : Loader β) (position : Nat) (record : ModuleRecord β) :
    (l.complete position record).attempted = l.attempted := by
  unfold complete
  split
  · rfl
  · dsimp only
    split
    · exact l.attempted_update position fun _ => rfl
    · exact l.attempted_update position fun _ => rfl

theorem attempted_expire (l : Loader β) (position : Nat) :
    (l.expire position).attempted = l.attempted := by
  refine l.attempted_update position fun load => ?_
  split <;> rfl

/-- Working on a load begins none. -/
theorem attempted_advance (l : Loader β) (gateOpen : Bool) (s : Site β) (position : Nat) :
    (l.advance gateOpen s position).1.attempted = l.attempted := by
  unfold advance
  split
  · rfl
  · rename_i work hwork
    rcases work.advance gateOpen l.source s with ⟨record | - | work', s'⟩
    · exact l.attempted_complete position record
    · exact l.attempted_update position fun _ => rfl
    · exact l.attempted_update position fun _ => rfl

theorem attempted_loadWithin (l : Loader β) (gateOpen : Bool) (s : Site β) (path : Path)
    (limit : Option Duration) :
    (l.loadWithin gateOpen s path limit).2.1.attempted = l.attempted ++ [path] := by
  simp only [loadWithin]
  rw [attempted_expire, attempted_advance, attempted_begin]

/-- **Of some paths, those that are let through are begun**, in their order. -/
theorem attempted_loadPaths (gateOpen : Bool) (options : LoadOptions) (paths : List Path) :
    ∀ (l : Loader β) (s : Site β), (l.loadPaths gateOpen s options paths).2.1.attempted
      = l.attempted ++ paths.filter options.admits := by
  induction paths with
  | nil => intro l s; simp [loadPaths]
  | cons path rest ih =>
    intro l s
    unfold loadPaths
    split
    · rename_i hadmits
      rcases hwithin : l.loadWithin gateOpen s path options.timeout with ⟨answer, l', s'⟩
      have hstep := l.attempted_loadWithin gateOpen s path options.timeout
      rw [hwithin] at hstep
      have hrest := ih l' s'
      have hbegun : l'.attempted ++ rest.filter options.admits
          = l.attempted ++ (path :: rest).filter options.admits := by
        rw [show l'.attempted = l.attempted ++ [path] from hstep,
          List.filter_cons_of_pos hadmits, List.append_assoc]
        rfl
      exact hrest.trans hbegun
    · rename_i hadmits
      rw [ih, List.filter_cons_of_neg hadmits]

/-- **What a whitelist lets through.** For every table, every whitelist that is not empty and all
paths, the loads begun are those of the paths it admits. A path that stands for a linked module is
loaded as that module, and it is begun exactly when the module is listed, unless the whitelist
misreads the path: then the module is begun and is not listed. No listed module is left out. -/
theorem loadPaths_attempts (t : ModuleTable β) (loads : List (Load β))
    (late : List (ModuleRecord β)) (gateOpen : Bool) (s : Site β) (first : String)
    (others : List String) (timeout : Option Duration) (paths : List Path) :
    let options : LoadOptions := ⟨first :: others, timeout⟩
    let l : Loader β := ⟨.linked t, loads, late⟩
    let begun := paths.filter options.admits
    (l.loadPaths gateOpen s options paths).2.1.attempted = l.attempted ++ begun ∧
    ∀ path ∈ paths, ∀ m, t.findForPath path = some m →
      (∀ files linker, (l.source.find files linker path).1 = .ok m) ∧
      ((path ∈ begun ↔ m.name ∈ options.whitelist) ↔ ¬ options.Misreads path m) ∧
      (m.name ∈ options.whitelist → path ∈ begun) := by
  intro options l begun
  refine ⟨attempted_loadPaths gateOpen options paths l s, fun path hpath m hm => ⟨?_, ?_, ?_⟩⟩
  · intro files linker
    simp [l, ModuleSource.find, hm]
  · have hbegun : path ∈ begun ↔ options.admits path = true := by
      simp [begun, hpath]
    rw [hbegun]
    exact LoadOptions.admits_iff_mem_whitelist (List.cons_ne_nil first others) hm
  · intro hlisted
    exact List.mem_filter.2 ⟨hpath, LoadOptions.admits_of_mem_whitelist hm hlisted⟩

/-- A module whose own name begins with the library mark is loaded though only the rest is
listed. -/
theorem loadPaths_loads_unlisted :
    let t : ModuleTable Unit := ⟨[⟨hostAbi, "libfoo", "1.0.0", [], [], []⟩]⟩
    let path : Path := ⟨"libfoo.module"⟩
    let records := ((new (.linked t)).loadPaths true default ⟨["foo"], none⟩ [path]).1
    (t.findForPath path).map (·.name) = some "libfoo" ∧
    records.map (fun r => r.module?.map (·.name)) = [some "libfoo"] := by
  decide +kernel

end Loader
end ModularHost
