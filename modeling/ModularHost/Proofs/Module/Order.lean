import ModularHost.Proofs.Module.Background
import ModularHost.Proofs.Module.Exchange
import ModularHost.Proofs.Module.Isolation
/-!
# Many loads, in any order

The loads of one call are begun together and may be worked on in any order. When no two of them
register under the same contract and name, the order does not matter: each comes to what it comes to
by itself (`advanceEach_apart`), failed or not, and the container in the end has the same bindings,
listed in the order in which they were registered and otherwise not to be told apart
(`loads_in_any_order`).
-/


namespace ModularHost

variable {β : Type} {t : ModuleTable β}

/-! ## What modules register under -/

/-- The keys that the module of a path registers under. -/
def ModuleTable.keysFor (t : ModuleTable β) (path : Path) : List BindingKey :=
  (t.registrationFor path).filterMap fun step => step.target?.map fun (contract, name) =>
    contract.key name

/-- The modules of two paths have no key in common. -/
def ModuleTable.Apart (t : ModuleTable β) (path path' : Path) : Prop :=
  ∀ key ∈ t.keysFor path, key ∉ t.keysFor path'

instance (path path' : Path) : Decidable (t.Apart path path') :=
  inferInstanceAs (Decidable (∀ key ∈ t.keysFor path, key ∉ t.keysFor path'))

theorem ModuleTable.Apart.symm {path path' : Path} (h : t.Apart path path') : t.Apart path' path :=
  fun key hkey' hkey => h key hkey hkey'

theorem ModuleTable.mem_keysFor {path : Path} {step : RegisterStep β}
    (hstep : step ∈ t.registrationFor path) {contract : Contract} {name : String}
    (htarget : step.target? = some (contract, name)) : contract.key name ∈ t.keysFor path :=
  List.mem_filterMap.2 ⟨step, hstep, by rw [htarget]; rfl⟩

/-- What is registered for a path is what some module of the table registers. -/
theorem ModuleTable.registrationFor_subset (t : ModuleTable β) (path : Path) :
    t.registrationFor path ⊆ t.modules.flatMap (·.registration) := by
  intro step hstep
  rw [registrationFor] at hstep
  cases hd : t.findForPath path with
  | none =>
    rw [hd] at hstep
    cases hstep
  | some d =>
    rw [hd] at hstep
    refine List.mem_flatMap.2 ⟨d, ?_, hstep⟩
    obtain ⟨stem, -, hfound⟩ := Option.bind_eq_some_iff.1 hd
    rcases Option.or_eq_some_iff.1 hfound with hget | ⟨-, hget⟩
    · exact List.mem_of_find?_eq_some hget
    · obtain ⟨name, -, hget⟩ := Option.bind_eq_some_iff.1 hget
      exact List.mem_of_find?_eq_some hget

namespace Container.Adds

variable {c c₁ c₂ : Container β} {done : List (RegisterStep β)}

/-- What one module adds takes no key of a module that has none in common with it. -/
theorem agree_of_apart (h : c₁.Adds done c₂) {path path' : Path}
    (hdone : done ⊆ t.registrationFor path) (hapart : t.Apart path path')
    (hagree : RegisterStep.Agree (t.registrationFor path') c c₁) :
    RegisterStep.Agree (t.registrationFor path') c c₂ := by
  intro step hstep contract name htarget
  rw [hagree step hstep contract name htarget, Bool.eq_iff_iff, contains_iff, contains_iff,
    h.bindings]
  refine ⟨fun ⟨b, hb, hkey⟩ => ⟨b, List.mem_append_left _ hb, hkey⟩, fun ⟨b, hb, hkey⟩ => ?_⟩
  rcases List.mem_append.1 hb with hb | hb
  · exact ⟨b, hb, hkey⟩
  · obtain ⟨step', hstep', htarget'⟩ := RegisterStep.exists_target_of_mem_boundBy _ hb
    have hmem : b.key ∈ t.keysFor path := ModuleTable.mem_keysFor (hdone hstep') htarget'
    have hmem' : b.key ∈ t.keysFor path' := hkey ▸ ModuleTable.mem_keysFor hstep htarget
    exact absurd hmem' (hapart _ hmem)

end Container.Adds

/-! ## The loads of one call -/

/-- A load that was begun and not yet worked on. -/
def Load.begun (limit : Option Duration) (path : Path) : Load β :=
  ⟨path, limit, some (.queued path), none⟩

namespace Loader

/-- Begins the loads of some paths. -/
def beginEach (l : Loader β) (limit : Option Duration) (paths : List Path) : Loader β :=
  paths.foldl (fun l path => l.begin path limit) l

/-- Works on some loads, one after another. -/
def advanceEach (l : Loader β) (gateOpen : Bool) (s : Site β) (order : List Nat) :
    Loader β × Site β :=
  order.foldl (fun (l, s) position => l.advance gateOpen s position) (l, s)

theorem advanceEach_cons (l : Loader β) (gateOpen : Bool) (s : Site β) (first : Nat)
    (rest : List Nat) :
    l.advanceEach gateOpen s (first :: rest) =
      (l.advance gateOpen s first).1.advanceEach gateOpen (l.advance gateOpen s first).2 rest :=
  rfl

/-- What the callers were answered, in the order in which they called. -/
def answers (l : Loader β) : List (ModuleRecord β) := l.loads.filterMap (·.answer)

theorem beginEach_eq (limit : Option Duration) (paths : List Path) : ∀ l : Loader β,
    l.beginEach limit paths = { l with loads := l.loads ++ paths.map (.begun limit) } := by
  induction paths with
  | nil => intro l; simp [beginEach]
  | cons path rest ih =>
    intro l
    have hrest := ih (l.begin path limit)
    rw [beginEach] at hrest ⊢
    rw [List.foldl_cons, hrest]
    simp [begin, Load.begun]

end Loader

/-- Loads the paths that the options admit in some order of their positions, and answers them in
their own. -/
def ModuleTable.loadPathsIn (t : ModuleTable β) (s : Site β) (options : LoadOptions)
    (paths : List Path) (order : List Nat) : List (ModuleRecord β) × Site β :=
  let l := (Loader.new (.linked t)).beginEach options.timeout (paths.filter options.admits)
  let (l, s) := l.advanceEach true s order
  (l.answers, s)

/-- The record is what loading the path by itself comes to, in one context or another. -/
def ModuleTable.AsAlone (t : ModuleTable β) (s₀ : Site β) (path : Path) (record : ModuleRecord β) :
    Prop :=
  ∃ alone id, (Loader.loadModule (.linked t) true s₀ path).1.verdict? path = some alone ∧
    record = alone.movedTo id

theorem WorkState.verdict?_movedTo (state : WorkState β) (id : ContextId) (path : Path) :
    (state.movedTo id).verdict? path = (state.verdict? path).map (·.movedTo id) := by
  cases state <;> rfl

namespace ModuleTable

variable {s₀ s : Site β} {path : Path} {done : List (RegisterStep β)}

theorem LoadsAs.verdict (h : t.LoadsAs s₀ path done) :
    ∃ alone, (Loader.loadModule (.linked t) true s₀ path).1.verdict? path = some alone ∧
      alone.path = path := by
  have hends := h.ends
  revert hends
  cases (Loader.loadModule (.linked t) true s₀ path).1 with
  | finished r => intro hpath; exact ⟨r, rfl, hpath⟩
  | crashed => intro _; exact ⟨_, rfl, rfl⟩
  | waiting work => intro hends; cases hends

end ModuleTable

namespace Loader

variable {s₀ s : Site β} {l : Loader β} {limit : Option Duration} {path : Path}
  {pathOf : Nat → Path} {done : List (RegisterStep β)} {doneOf : Path → List (RegisterStep β)}
  {position : Nat}

/-- A load that was begun ends when it is worked on, and is answered with what it comes to. -/
theorem advance_begun (hsource : l.source = .linked t)
    (hload : l.loads[position]? = some (.begun limit path)) (s : Site β) :
    ∃ load : Load β, l.advance true s position =
        (l.put position load none, (loadModule (.linked t) true s path).2) ∧
      load.answer = (loadModule (.linked t) true s path).1.verdict? path := by
  have hwork : (Load.begun limit path : Load β).work = some (.queued path) := rfl
  have hstep := advance_eq_put hload hwork true s
  rw [hsource, ← loadModule] at hstep
  exact ⟨_, hstep, rfl⟩

/-- A load is answered as if it came by itself, and no other load is touched. -/
theorem answered_advance (h : t.LoadsAs s₀ path done) (hsource : l.source = .linked t)
    (hload : l.loads[position]? = some (.begun limit path)) (hbeside : s₀.Beside s)
    (hagree : RegisterStep.Agree (t.registrationFor path) s₀.container s.container) :
    ∃ l₁ load record, l.advance true s position = (l₁, (loadModule (.linked t) true s path).2) ∧
      l₁.source = .linked t ∧ l₁.loads[position]? = some load ∧ load.answer = some record ∧
      t.AsAlone s₀ path record ∧ ∀ i ≠ position, l₁.loads[i]? = l.loads[i]? := by
  obtain ⟨alone, halone, -⟩ := h.verdict
  obtain ⟨hsame, -, -⟩ := h.elsewhere s hbeside hagree
  have hanswer : (loadModule (.linked t) true s path).1.verdict? path =
      some (alone.movedTo ⟨s.contexts.length⟩) := by
    rw [hsame, WorkState.verdict?_movedTo, halone]
    rfl
  obtain ⟨hlt, -⟩ := List.getElem?_eq_some_iff.1 hload
  obtain ⟨load, hstep, hrecord⟩ := advance_begun hsource hload s
  exact ⟨_, load, _, hstep, hsource, List.getElem?_set_self hlt, hrecord.trans hanswer,
    ⟨alone, _, halone, rfl⟩, fun i hi => List.getElem?_set_ne hi.symm⟩

/-- **Loads that have no keys in common come to what they come to by themselves**, in whatever order
they are worked on; what they add is added in that order. -/
theorem advanceEach_apart (hdone : ∀ path, t.LoadsAs s₀ path (doneOf path)) (order : List Nat) :
    ∀ (l : Loader β) (s : Site β), l.source = .linked t → order.Nodup →
      (∀ i ∈ order, l.loads[i]? = some (.begun limit (pathOf i))) → s₀.Beside s →
      (∀ i ∈ order, RegisterStep.Agree (t.registrationFor (pathOf i)) s₀.container s.container) →
      (order.map pathOf).Pairwise t.Apart →
        (∀ i ∈ order, ∃ load record, (l.advanceEach true s order).1.loads[i]? = some load ∧
          load.answer = some record ∧ t.AsAlone s₀ (pathOf i) record) ∧
        (∀ i ∉ order, (l.advanceEach true s order).1.loads[i]? = l.loads[i]?) ∧
        s₀.Beside (l.advanceEach true s order).2 ∧
        s.container.Adds ((order.map pathOf).flatMap doneOf)
          (l.advanceEach true s order).2.container := by
  induction order with
  | nil =>
    intro l s _ _ _ hbeside _ _
    exact ⟨nofun, fun _ _ => rfl, hbeside, .nil _⟩
  | cons first rest ih =>
    intro l s hsource hnodup hbegun hbeside hagree hapart
    obtain ⟨hfresh, hnodup'⟩ := List.nodup_cons.1 hnodup
    obtain ⟨hfirst, hapart'⟩ := List.pairwise_cons.1 hapart
    have hagree₁ := hagree first List.mem_cons_self
    obtain ⟨-, hbeside₁, hadds⟩ := (hdone (pathOf first)).elsewhere s hbeside hagree₁
    obtain ⟨l₁, load, record, hstep, hsource₁, hload, hrecord, halone, hother⟩ :=
      answered_advance (hdone _) hsource (hbegun first List.mem_cons_self) hbeside hagree₁
    -- the loads that are left are as they were, and find their keys as they were
    have hbegun₁ : ∀ i ∈ rest, l₁.loads[i]? = some (.begun limit (pathOf i)) := fun i hi =>
      (hother i (ne_of_mem_of_not_mem hi hfresh)).trans (hbegun i (List.mem_cons_of_mem _ hi))
    have hagree' : ∀ i ∈ rest, RegisterStep.Agree (t.registrationFor (pathOf i)) s₀.container
        (loadModule (.linked t) true s (pathOf first)).2.container := fun i hi =>
      hadds.agree_of_apart (hdone _).registered (hfirst _ (List.mem_map_of_mem hi))
        (hagree i (List.mem_cons_of_mem _ hi))
    obtain ⟨hanswered, hkept, hbeside', hadds'⟩ :=
      ih l₁ _ hsource₁ hnodup' hbegun₁ hbeside₁ hagree' hapart'
    rw [advanceEach_cons, hstep]
    refine ⟨fun i hi => ?_, fun i hi => ?_, hbeside', hadds.append hadds'⟩
    · rcases List.mem_cons.1 hi with rfl | hi
      · exact ⟨load, record, (hkept i hfresh).trans hload, hrecord, halone⟩
      · exact hanswered i hi
    · have hne : i ≠ first := fun h => hi (h ▸ List.mem_cons_self)
      exact (hkept i fun hrest => hi (List.mem_cons_of_mem _ hrest)).trans (hother i hne)

/-- When every load is answered, there is an answer for each. -/
theorem forall₂_answers {R : Path → ModuleRecord β → Prop} {paths : List Path}
    {loads : List (Load β)}
    (h : List.Forall₂ (fun path load => ∃ record, load.answer = some record ∧ R path record) paths
      loads) : List.Forall₂ R paths (loads.filterMap (·.answer)) := by
  induction h with
  | nil => exact .nil
  | cons hload _ ih =>
    obtain ⟨record, hanswer, hrecord⟩ := hload
    rw [List.filterMap_cons, hanswer]
    exact .cons hrecord ih

theorem map_range_getD (paths : List Path) :
    ((List.range paths.length).map fun i => paths[i]?.getD default) = paths :=
  List.ext_getElem (by simp) fun i _ hi => by simp [hi]

/-- Loads that were begun together are each answered in their place. -/
theorem answers_apart {paths : List Path} {order : List Nat}
    (hdone : ∀ path, t.LoadsAs s path (doneOf path)) (hapart : paths.Pairwise t.Apart)
    (horder : order.Perm (List.range paths.length)) (hsource : l.source = .linked t)
    (hloads : l.loads = paths.map (.begun limit)) :
    List.Forall₂ (t.AsAlone s) paths (l.advanceEach true s order).1.answers ∧
      s.Beside (l.advanceEach true s order).2 ∧
      ∃ ordered : List Path, ordered.Perm paths ∧
        s.container.Adds (ordered.flatMap doneOf) (l.advanceEach true s order).2.container := by
  have hmem : ∀ i, i ∈ order ↔ i < paths.length := fun i => horder.mem_iff.trans List.mem_range
  have hordered : (order.map fun i => paths[i]?.getD default).Perm paths := by
    have hperm := horder.map fun i => paths[i]?.getD default
    rwa [map_range_getD] at hperm
  have hbegun : ∀ i ∈ order, l.loads[i]? = some (.begun limit (paths[i]?.getD default)) := by
    intro i hi
    have hlt := (hmem i).1 hi
    simp [hloads, hlt]
  obtain ⟨hanswered, hkept, hbeside, hadds⟩ := advanceEach_apart hdone order l s hsource
    (horder.nodup_iff.2 List.nodup_range) hbegun ⟨rfl, rfl⟩ (fun _ _ _ _ _ _ _ => rfl)
    ((hordered.pairwise_iff ModuleTable.Apart.symm).2 hapart)
  have hlength : (l.advanceEach true s order).1.loads.length = paths.length := by
    refine Nat.le_antisymm ?_ (Nat.le_of_not_lt fun hlt => ?_)
    · have hend := hkept paths.length fun h => Nat.lt_irrefl _ ((hmem _).1 h)
      simpa [hloads] using hend
    · obtain ⟨_, _, hload, -⟩ := hanswered _ ((hmem _).2 hlt)
      simp at hload
  refine ⟨forall₂_answers (List.forall₂_iff_get.2 ⟨hlength.symm, fun i hi hi' => ?_⟩), hbeside,
    _, hordered, hadds⟩
  obtain ⟨load, record, hload, hrecord, halone⟩ := hanswered i ((hmem i).2 hi)
  rw [List.getElem?_eq_getElem hi', Option.some.injEq] at hload
  rw [List.getElem?_eq_getElem hi, Option.getD_some] at halone
  rw [← hload] at hrecord
  exact ⟨record, hrecord, halone⟩

end Loader

namespace ModuleTable

variable {s : Site β} {options : LoadOptions} {paths : List Path} {order : List Nat}
  {doneOf : Path → List (RegisterStep β)}

/-- **In whatever order the loads of a call run, each path is answered in its place**, as if it were
loaded by itself, and what is registered is what each registers by itself. -/
theorem loadPathsIn_apart (hdone : ∀ path, t.LoadsAs s path (doneOf path))
    (hapart : (paths.filter options.admits).Pairwise t.Apart)
    (horder : order.Perm (List.range (paths.filter options.admits).length)) :
    List.Forall₂ (t.AsAlone s) (paths.filter options.admits)
        (t.loadPathsIn s options paths order).1 ∧
      s.Beside (t.loadPathsIn s options paths order).2 ∧
      ∃ ordered : List Path, ordered.Perm (paths.filter options.admits) ∧
        s.container.Adds (ordered.flatMap doneOf)
          (t.loadPathsIn s options paths order).2.container := by
  have hbegun := Loader.beginEach_eq options.timeout (paths.filter options.admits)
    (Loader.new (.linked t))
  have hsource := congrArg Loader.source hbegun
  have hloads := congrArg Loader.loads hbegun
  rw [Loader.new, List.nil_append] at hloads
  exact Loader.answers_apart hdone hapart horder hsource hloads

end ModuleTable

namespace Loader

variable {l l' : Loader β}

/-- A limit that passes changes nothing for those who were answered. -/
theorem answer?_expire {position : Nat} {load : Load β} {record : ModuleRecord β}
    (h : l.loads[position]? = some load) (hanswer : load.answer = some record) :
    (l.expire position).answer? position = some record := by
  obtain ⟨load', hload', hkeeps⟩ :=
    (l.keeps_update position Load.keeps_expire).loads position load h
  have hexpired : (l.expire position).loads[position]? = some load' := hload'
  rw [answer?, hexpired, Option.bind_some, hkeeps.answer record hanswer]

/-- A load that is waited for is answered before its limit passes. -/
theorem loadWithin_open (hsource : l.source = .linked t) (s : Site β) (path : Path)
    (limit : Option Duration) : ∃ l₁ : Loader β, l₁.source = .linked t ∧
      l.loadWithin true s path limit =
        ((loadModule (.linked t) true s path).1.verdict? path, l₁,
          (loadModule (.linked t) true s path).2) := by
  obtain ⟨_, hdone⟩ := loadModule_moved t s path
  obtain ⟨record, hverdict, -⟩ := hdone.verdict
  have hbegun : (l.begin path limit).loads[l.loads.length]? = some (.begun limit path) := by
    simp [begin, Load.begun]
  obtain ⟨hlt, -⟩ := List.getElem?_eq_some_iff.1 hbegun
  obtain ⟨load, hstep, hanswer⟩ := advance_begun (l := l.begin path limit) hsource hbegun s
  rw [hverdict] at hanswer ⊢
  have hrecord := answer?_expire (l := (l.begin path limit).put l.loads.length load none)
    (List.getElem?_set_self hlt) hanswer
  refine ⟨((l.begin path limit).put l.loads.length load none).expire l.loads.length, hsource, ?_⟩
  rw [loadWithin]
  dsimp only
  rw [hstep]
  exact Prod.ext hrecord rfl

/-- **The paths of a call are loaded in their order**, when nothing else is done meanwhile. -/
theorem loadPaths_inTurn (options : LoadOptions) (paths : List Path) :
    ∀ (l l' : Loader β) (s : Site β), l.source = .linked t → l'.source = .linked t →
      let admitted := paths.filter options.admits
      let run := (l.beginEach options.timeout admitted).advanceEach true s
        (List.range' l.loads.length admitted.length)
      run.1.answers = l.answers ++ (l'.loadPaths true s options paths).1 ∧
        run.2 = (l'.loadPaths true s options paths).2.2 := by
  induction paths with
  | nil => intro l l' s _ _; simp [loadPaths, beginEach, advanceEach]
  | cons path rest ih =>
    intro l l' s hsource hsource'
    unfold loadPaths
    by_cases hadmits : options.admits path = true
    · dsimp only
      rw [if_pos hadmits, List.filter_cons_of_pos hadmits]
      obtain ⟨l₁', hsource₁', hwithin⟩ := loadWithin_open hsource' s path options.timeout
      have hbegun : (l.beginEach options.timeout (path :: rest.filter options.admits)).loads[
          l.loads.length]? = some (.begun options.timeout path) := by
        simp [beginEach_eq]
      obtain ⟨load, hstep, hanswer⟩ :=
        advance_begun (by rw [beginEach_eq]; exact hsource) hbegun s
      -- the first load is answered, and stands before those that are begun after it
      have hput : (l.beginEach options.timeout (path :: rest.filter options.admits)).put
          l.loads.length load none =
          Loader.beginEach { l with loads := l.loads ++ [load] } options.timeout
            (rest.filter options.admits) := by
        simp [beginEach_eq, put]
      have hanswers : answers { l with loads := l.loads ++ [load] } =
          l.answers ++ ((loadModule (.linked t) true s path).1.verdict? path).toList := by
        rw [← hanswer]
        cases h : load.answer <;> simp [answers, h]
      obtain ⟨hrecords, hsite⟩ := ih { l with loads := l.loads ++ [load] } l₁'
        (loadModule (.linked t) true s path).2 hsource hsource₁'
      rw [hanswers, List.length_append, List.length_singleton, List.append_assoc] at hrecords
      rw [List.length_append, List.length_singleton] at hsite
      rw [hwithin, List.length_cons, List.range'_succ, advanceEach_cons, hstep, hput]
      exact ⟨hrecords, hsite⟩
    · rw [if_neg hadmits, List.filter_cons_of_neg hadmits]
      exact ih l l' s hsource hsource'

end Loader

theorem ModuleTable.AsAlone.path_eq {s₀ : Site β} {path : Path} {record : ModuleRecord β}
    (h : t.AsAlone s₀ path record) : record.path = path := by
  obtain ⟨alone, id, halone, rfl⟩ := h
  obtain ⟨_, hdone⟩ := loadModule_moved t s₀ path
  obtain ⟨alone', halone', hpath⟩ := hdone.verdict
  obtain rfl : alone = alone' := Option.some.inj (halone.symm.trans halone')
  exact hpath

/-- What paths come to in one order they come to in another, in other contexts. -/
theorem ModuleTable.moved_of_asAlone {s₀ : Site β} {paths : List Path}
    {records records' : List (ModuleRecord β)} (h : List.Forall₂ (t.AsAlone s₀) paths records)
    (h' : List.Forall₂ (t.AsAlone s₀) paths records') :
    List.Forall₂ (fun record record' => ∃ id, record' = record.movedTo id) records records' := by
  induction h generalizing records' with
  | nil =>
    cases h'
    exact .nil
  | cons hrecord _ ih =>
    obtain - | ⟨hrecord', hrest'⟩ := h'
    refine .cons ?_ (ih hrest')
    obtain ⟨alone, id, halone, rfl⟩ := hrecord
    obtain ⟨alone', id', halone', rfl⟩ := hrecord'
    obtain rfl : alone = alone' := Option.some.inj (halone.symm.trans halone')
    exact ⟨id', (alone.movedTo_movedTo id').symm⟩

/-- **The order in which the modules of one call are loaded does not matter** when no two of them
register under the same contract and name. In whatever order they are loaded, one after another, the
admitted paths are answered one by one in their order, each with what it comes to when it is loaded
by itself, loaded or failed; the records of two orders differ by the contexts of the modules only.
The containers have the same contracts and names, bound for the same lifetimes, which they list in
other orders. As long as no factory knows an instance by its number, which stands for its identity,
there is one renaming of the instances made in the one order to those made in the other under which
all look-ups are answered alike. To load the paths in their own order is to load them in one
call. -/
theorem loads_in_any_order (t : ModuleTable β) (s : Site β) (options : LoadOptions)
    (paths : List Path) (hapart : (paths.filter options.admits).Pairwise t.Apart)
    (order order' : List Nat)
    (horder : order.Perm (List.range (paths.filter options.admits).length))
    (horder' : order'.Perm (List.range (paths.filter options.admits).length)) :
    let admitted := paths.filter options.admits
    let run := t.loadPathsIn s options paths order
    let run' := t.loadPathsIn s options paths order'
    run.1.map (·.path) = admitted ∧
    List.Forall₂ (t.AsAlone s) admitted run.1 ∧
    List.Forall₂ (fun record record' => ∃ id, record' = record.movedTo id) run.1 run'.1 ∧
    run.2.host = s.host ∧
    (run.2.container.bindings.map Binding.shown).Perm
      (run'.2.container.bindings.map Binding.shown) ∧
    run.2.container.infos.Perm run'.2.container.infos ∧
    (∀ contract, (run.2.container.names contract).Perm (run'.2.container.names contract)) ∧
    (∀ contract name, run.2.container.contains contract name =
      run'.2.container.contains contract name) ∧
    ((∀ b ∈ s.container.bindings, b.Blind s.container.minted) →
      (∀ path ∈ admitted, ∀ step ∈ t.registrationFor path, step.Blind s.container.minted) →
        ∃ ρ : Equiv.Perm Nat, (∀ n < s.container.minted, ρ n = n) ∧
          ∀ calls : List (ContainerCall β), (∀ call ∈ calls, call.isLookUp = true) →
            (run'.2.container.run calls).1 = (run.2.container.run calls).1.map (·.rename ρ)) ∧
    t.loadPathsIn s options paths (List.range admitted.length) =
      (((Loader.new (.linked t)).loadPaths true s options paths).1,
        ((Loader.new (.linked t)).loadPaths true s options paths).2.2) := by
  intro admitted run run'
  choose doneOf hdone using loadModule_moved t s
  obtain ⟨hrecords, hbeside, ordered, hordered, hadds⟩ :=
    ModuleTable.loadPathsIn_apart hdone hapart horder
  obtain ⟨hrecords', -, ordered', hordered', hadds'⟩ :=
    ModuleTable.loadPathsIn_apart hdone hapart horder'
  have hperm : (ordered.flatMap doneOf).Perm (ordered'.flatMap doneOf) :=
    (hordered.trans hordered'.symm).flatMap_right doneOf
  have hshown := Container.shown_perm_of_adds hadds hadds' hperm
  refine ⟨?_, hrecords, ?_, hbeside.host, hshown, ?_, fun contract => ?_, fun contract name => ?_,
    fun hfirst hblind => ?_, ?_⟩
  · have hpaths : List.Forall₂ (· = ·) admitted (run.1.map (·.path)) :=
      List.forall₂_map_right_iff.2 (hrecords.imp fun _ _ h => h.path_eq.symm)
    rw [List.forall₂_eq_eq_eq] at hpaths
    exact hpaths.symm
  · exact ModuleTable.moved_of_asAlone hrecords hrecords'
  · rw [Container.infos_eq_shown, Container.infos_eq_shown]
    exact hshown.map _
  · rw [Container.names_eq_shown, Container.names_eq_shown]
    exact (hshown.filter _).map _
  · rw [Bool.eq_iff_iff, Container.contains_iff_shown, Container.contains_iff_shown]
    exact exists_congr fun _ => and_congr_left fun _ => hshown.mem_iff
  · have hsteps : ∀ step ∈ ordered.flatMap doneOf, step.Blind s.container.minted := by
      intro step hstep
      obtain ⟨path, hpath, hin⟩ := List.mem_flatMap.1 hstep
      exact hblind path (hordered.mem_iff.1 hpath) step ((hdone path).registered hin)
    obtain ⟨ρ, hlow, halike⟩ := Container.alike_of_adds hadds hadds' hperm hfirst hsteps
    exact ⟨ρ, hlow, fun calls hcalls => Container.answers_alike halike calls hcalls⟩
  · obtain ⟨hinTurn, hsite⟩ := Loader.loadPaths_inTurn options paths (.new (.linked t))
      (.new (.linked t)) s rfl rfl
    have hrange : List.range admitted.length =
        List.range' (Loader.new (.linked t)).loads.length admitted.length := List.range_eq_range'
    rw [hrange]
    exact Prod.ext hinTurn hsite

/-- What one container hands out the other hands out under its new number. -/
theorem Container.eq_rename_of_answers {ρ : Equiv.Perm Nat} {c c' : Container β}
    (h : ∀ calls : List (ContainerCall β), (∀ call ∈ calls, call.isLookUp = true) →
      (c'.run calls).1 = (c.run calls).1.map (·.rename ρ))
    {contract : Contract} {name : String} {i i' : Instance β}
    (hi : (c.resolve contract name).1.toOption = some i)
    (hi' : (c'.resolve contract name).1.toOption = some i') : i' = i.rename ρ := by
  have hanswer : ContainerAnswer.ofResolved (c'.resolve contract name).1 =
      (ContainerAnswer.ofResolved (c.resolve contract name).1).rename ρ :=
    List.head_eq_of_cons_eq (h [.resolve contract name] fun call hcall =>
      List.mem_singleton.1 hcall ▸ rfl)
  rcases hc : (c.resolve contract name).1 with e | j
  · rw [hc] at hi
    cases hi
  · rcases hc' : (c'.resolve contract name).1 with e' | j'
    · rw [hc'] at hi'
      cases hi'
    · rw [hc] at hi hanswer
      rw [hc'] at hi' hanswer
      cases hi
      cases hi'
      exact ContainerAnswer.resolved.inj hanswer

/-- What stands under the first name, once more. -/
def firstAgain : Factory Unit :=
  .resolve ⟨⟨0, "Store"⟩, "Store"⟩ "first" <| .build fun _ found =>
    match found with
    | i :: _ => .ok (.existing i)
    | [] => .error "nothing found"

theorem firstAgain_blind (made : Nat) : firstAgain.Blind made := by
  intro ρ _
  refine .resolve (.build fun run found => ?_)
  cases found <;> rfl

/-- Two modules that make an implementation each. One of them registers it under a second name, and
then gives up. -/
def unevenTable : ModuleTable Unit :=
  ⟨[⟨hostAbi, "broken", "1.0.0", [], [],
      [.bindInstance ⟨⟨0, "Store"⟩, "Store"⟩ "first" (),
        .bind ⟨⟨0, "Store"⟩, "Store"⟩ "again" .singleton firstAgain, .refuse .endless]⟩,
    ⟨hostAbi, "sound", "1.0.0", [], [], [.bindInstance ⟨⟨0, "Store"⟩, "Store"⟩ "second" ()]⟩]⟩

theorem unevenTable_blind (made : Nat) :
    ∀ step ∈ unevenTable.modules.flatMap (·.registration), step.Blind made := by
  simp [unevenTable, RegisterStep.Blind, firstAgain_blind]

/-- The implementation that is made first in the one order is made second in the other. -/
theorem loads_in_any_order_uneven :
    let store : Contract := ⟨⟨0, "Store"⟩, "Store"⟩
    let paths : List Path := [⟨"broken.module"⟩, ⟨"sound.module"⟩]
    let run := unevenTable.loadPathsIn default ⟨[], none⟩ paths [0, 1]
    let run' := unevenTable.loadPathsIn default ⟨[], none⟩ paths [1, 0]
    run.1.map (·.isLoaded) = [false, true] ∧
    List.Forall₂ (fun record record' => ∃ id, record' = record.movedTo id) run.1 run'.1 ∧
    run.2.container.contains store "first" = true ∧
    (run.2.container.names store).Perm (run'.2.container.names store) ∧
    ∃ ρ : Equiv.Perm Nat, ρ 0 = 1 ∧ ∀ calls : List (ContainerCall Unit),
      (∀ call ∈ calls, call.isLookUp = true) →
        (run'.2.container.run calls).1 = (run.2.container.run calls).1.map (·.rename ρ) := by
  intro store paths run run'
  obtain ⟨-, -, hmoved, -, -, -, hnames, -, halike, -⟩ :=
    loads_in_any_order unevenTable default ⟨[], none⟩ paths (by decide +kernel) [0, 1] [1, 0]
      (by decide) (by decide)
  have hempty : (default : Site Unit).container.bindings = [] := by
    have hrows := Container.ledger_empty (β := Unit)
    exact List.map_eq_nil_iff.1 (congrArg Ledger.rows hrows)
  obtain ⟨ρ, -, hrun⟩ := halike (by simp [hempty]) fun path _ step hstep =>
    unevenTable_blind _ step (unevenTable.registrationFor_subset path hstep)
  refine ⟨by decide +kernel, hmoved, by decide +kernel, hnames store, ρ, ?_, hrun⟩
  have hfound : (run.2.container.resolve store "again").1.toOption = some ⟨0, ()⟩ := by
    decide +kernel
  have hfound' : (run'.2.container.resolve store "again").1.toOption = some ⟨1, ()⟩ := by
    decide +kernel
  exact (congrArg Instance.serial (Container.eq_rename_of_answers hrun hfound hfound')).symm

end ModularHost
