import Mathlib.Logic.Function.Basic
import ModularHost.Proofs.Module.Handles
/-!
# Leases

Whatever holds a module holds its lease, be it a handle, a record or the context that owns it. A
lease counts who holds it: one more when the module is handed on, one less when it is dropped. Of
the many things that can happen to modules and contexts, there are but six that the counts are
concerned with (`LeaseRun.Moves`, `LeaseRun.moves_step`).
-/


namespace ModularHost

variable {β : Type}

/-- Contexts, what is in custody, and the leases of the modules. -/
structure LeaseRun (β : Type) where
  site : Site β
  custody : Custody β
  /-- How many hold each lease. -/
  counts : Lease → Nat
  /-- The modules that the loads into each context were answered with. Nothing reads it. -/
  joined : ContextId → List (LoadedModule β)
  /-- How often each context was unloaded. Nothing reads it. -/
  unloads : ContextId → Nat

/-- What can happen to them. -/
inductive LeaseStep (β : Type) where
  /-- What stands beside the contexts changes. -/
  | rearrange (container : Container β) (host : HostScope) (files : FileTree (Library β))
    (linker : Linker β)
  | create (source : ModuleSource β)
  | cloneContext (id : ContextId)
  | dropContext (id : ContextId)
  | load (id : ContextId) (path : Path)
  /-- A handle to each module of a context. -/
  | modules (id : ContextId)
  | clone (place : Nat)
  | drop (place : Nat)
  | unload (id : ContextId)
  /-- A load into a context made for it, with a record of it. -/
  | loadModule (source : ModuleSource β) (path : Path)
  /-- A handle to the module of a record. -/
  | cloneRecord (place : Nat)
  | dropRecord (place : Nat)

namespace LeaseRun

/-- A site without contexts, and nothing in custody. -/
def start (s : Site β) : LeaseRun β :=
  ⟨{ s with contexts := [], numbered := Site.numbered_nil }, .empty, fun _ => 0, fun _ => [],
    fun _ => 0⟩

/-- A context, as long as something holds it. -/
def context? (r : LeaseRun β) (id : ContextId) : Option (LoadContext β) :=
  if r.custody.holdsContext id then r.site.context? id else none

/-- What a context owns. -/
def owned (r : LeaseRun β) (id : ContextId) : List (LoadedModule β) :=
  ((r.context? id).map (·.modules)).getD []

/-- Whether a lease is held by more than one, as an unload asks while it still holds all that it
lets go of. -/
def shared (r : LeaseRun β) (lease : Lease) : Bool := 1 < r.counts lease

/-- Whether the module of a lease is still there. -/
def upgrades (r : LeaseRun β) (lease : Lease) : Bool := 0 < r.counts lease

/-- Some modules are handed on. -/
def gain (r : LeaseRun β) (ms : List (LoadedModule β)) : Lease → Nat :=
  fun lease => r.counts lease + lease.among ms

/-- Some modules are dropped. -/
def lose (r : LeaseRun β) (ms : List (LoadedModule β)) : Lease → Nat :=
  fun lease => r.counts lease - lease.among ms

/-- Takes handles to some modules. -/
def take (r : LeaseRun β) (ms : List (LoadedModule β)) : LeaseRun β :=
  { r with custody := r.custody.addHandles ms, counts := r.gain ms }

/-- Some modules leave custody, and the context that was held with them: if nothing else holds it,
all that it owned is dropped with it. -/
def leave (r : LeaseRun β) (custody : Custody β) (dropped : List (LoadedModule β))
    (id : Option ContextId) : LeaseRun β :=
  let gone := id.toList.flatMap fun id => if custody.holdsContext id then [] else r.owned id
  { r with custody, counts := r.lose (dropped ++ gone) }

/-- A module joins a context, which has hold of it from now on. -/
def join (r : LeaseRun β) (site : Site β) (id : ContextId) (m : LoadedModule β) : LeaseRun β :=
  { r with
    site
    counts := r.gain [m]
    joined := Function.update r.joined id (r.joined id ++ [m]) }

/-- A context lets go of its modules. -/
def release (r : LeaseRun β) (site : Site β) (id : ContextId) (ms : List (LoadedModule β)) :
    LeaseRun β :=
  { r with
    site
    counts := r.lose ms
    unloads := Function.update r.unloads id (r.unloads id + 1) }

def step (r : LeaseRun β) : LeaseStep β → LeaseRun β
  | .rearrange container host files linker =>
    { r with site := { r.site with container, host, files, linker } }
  | .create source =>
    let (c, site) := r.site.createContext source
    { r with site, custody := { r.custody with contexts := r.custody.contexts ++ [c.id] } }
  | .cloneContext id =>
    match r.context? id with
    | none => r
    | some c => { r with custody := { r.custody with contexts := r.custody.contexts ++ [c.id] } }
  | .dropContext id => r.leave { r.custody with contexts := r.custody.contexts.erase id } [] id
  | .load id path =>
    match r.context? id with
    | none => r
    | some c =>
      match r.site.load true c path with
      | (.admitted _ m, site) => (r.join site id m).take [m]
      | (_, site) => { r with site }
  | .modules id => r.take (r.owned id)
  | .clone place => r.take (r.custody.handle? place).toList
  | .drop place =>
    match r.custody.handle? place with
    | none => r
    | some m => r.leave (r.custody.dropHandle place).2 [m] none
  | .unload id =>
    match r.context? id with
    | none => r
    | some c => r.release (r.site.unload r.shared id).2 id c.modules
  | .loadModule source path =>
    let id := (r.site.createContext source).1.id
    match Loader.loadModule source true r.site path with
    | (.finished record, site) =>
      -- a load that failed has unloaded its context, and all that is left is with the record
      { site
        custody := (r.custody.addRecord record).2
        counts := r.gain (record.held ++ record.module?.toList)
        joined := Function.update r.joined id record.held
        unloads := Function.update r.unloads id (if record.isLoaded then 0 else 1) }
    | (_, site) => { r with site }
  | .cloneRecord place => r.take ((r.custody.record? place).bind (·.module?)).toList
  | .dropRecord place =>
    match r.custody.record? place with
    | none => r
    | some record => r.leave (r.custody.dropRecord place).2 record.held record.context

def run (r : LeaseRun β) (steps : List (LeaseStep β)) : LeaseRun β := steps.foldl step r

/-! ## What a step does

A step is a matter of the leases only by what it has taken, dropped or let go of. The invariant of
the counts is proved for each of these, and not for each step.
-/

/-- One more context has come about, with what its load left in custody. -/
structure Opens (r r' : LeaseRun β) (c : LoadContext β) : Prop where
  gains : r.site.Gains r'.site c
  others : ∀ id, id ≠ c.id → r'.joined id = r.joined id ∧ r'.unloads id = r.unloads id ∧
    r'.custody.holdsContext id = r.custody.holdsContext id
  held : r'.custody.held = r.custody.held ++ r'.joined c.id
  counts : r'.counts = r.gain (r'.joined c.id ++ c.modules)
  owned : c.modules = [] ∨ r'.custody.holdsContext c.id = true
  modules : c.modules = if r'.unloads c.id = 0 then r'.joined c.id else []
  unloaded : c.unloaded = true ↔ r'.unloads c.id ≠ 0
  lease : r'.joined c.id = [] ∨ ∃ m, r'.joined c.id = [m] ∧ m.lease = ⟨c.id, 0⟩

/-- Nothing that is held has changed hands. -/
structure Rests (r r' : LeaseRun β) : Prop where
  counts : r'.counts = r.counts
  joined : r'.joined = r.joined
  unloads : r'.unloads = r.unloads
  held : r'.custody.held = r.custody.held
  holdsContext : ∀ id, r'.custody.holdsContext id = r.custody.holdsContext id
  contexts : ∀ id, (r'.site.context? id).map (fun c => (c.modules, c.unloaded)) =
    (r.site.context? id).map fun c => (c.modules, c.unloaded)

/-- **What a step may do to those that hold modules.** -/
inductive Moves (r : LeaseRun β) : LeaseRun β → Prop
  | rests {r' : LeaseRun β} : r.Rests r' → Moves r r'
  | takes {ms : List (LoadedModule β)} :
    (∀ m ∈ ms, m ∈ r.custody.held ∨ ∃ id, m ∈ r.owned id) → Moves r (r.take ms)
  | leaves {custody : Custody β} {dropped : List (LoadedModule β)} {id : Option ContextId} :
    r.custody.held.Perm (custody.held ++ dropped) →
    (∀ other, some other ≠ id → custody.holdsContext other = r.custody.holdsContext other) →
    (∀ other, custody.holdsContext other = true → r.custody.holdsContext other = true) →
    Moves r (r.leave custody dropped id)
  | joins {c c' : LoadContext β} {m : LoadedModule β} {site : Site β} :
    r.context? c.id = some c → c.unloaded = false → c'.unloaded = false →
    c'.modules = c.modules ++ [m] → m.lease = ⟨c.id, c.modules.length⟩ →
    (∀ id, site.context? id = if id = c.id then some c' else r.site.context? id) →
    Moves r ((r.join site c.id m).take [m])
  | releases {c c' : LoadContext β} {site : Site β} : r.context? c.id = some c →
    c'.unloaded = true → c'.modules = [] →
    (∀ id, site.context? id = if id = c.id then some c' else r.site.context? id) →
    Moves r (r.release site c.id c.modules)
  | opens {r' : LeaseRun β} {c : LoadContext β} : r.Opens r' c → Moves r r'

variable {r r' : LeaseRun β} {c : LoadContext β} {id : ContextId} {m : LoadedModule β}

theorem Rests.refl (r : LeaseRun β) : r.Rests r :=
  ⟨rfl, rfl, rfl, rfl, fun _ => rfl, fun _ => rfl⟩

theorem context?_eq_some (h : r.context? id = some c) :
    r.custody.holdsContext id = true ∧ r.site.context? id = some c ∧ c.id = id := by
  unfold context? at h
  split at h
  · exact ⟨‹_›, h, Site.id_of_context? h⟩
  · cases h

/-- Putting a context in its place changes that place alone. -/
theorem context?_setContext_eq {s : Site β} {c c' : LoadContext β} (hc : s.context? c.id = some c)
    (hid : c'.id = c.id) (id : ContextId) :
    (s.setContext c').context? id = if id = c.id then some c' else s.context? id := by
  split
  · subst id
    rw [← hid]
    exact Site.context?_setContext (by rw [hid, hc]; rfl)
  · exact Site.context?_setContext_of_ne (by rw [hid]; exact Ne.symm ‹_›)

theorem moves_load (r : LeaseRun β) (id : ContextId) (path : Path) :
    r.Moves (r.step (.load id path)) := by
  cases hc : r.context? id with
  | none => simpa [step, hc] using .rests (.refl r)
  | some c =>
    obtain ⟨-, hfound, rfl⟩ := context?_eq_some hc
    rcases hload : c.load true r.site.host r.site.files r.site.linker path with ⟨admission, linker⟩
    have hset : ∀ c' : LoadContext β, c'.id = c.id → ∀ id,
        (({ r.site with linker } : Site β).setContext c').context? id =
          if id = c.id then some c' else r.site.context? id :=
      fun c' hid => context?_setContext_eq hfound hid
    simp only [step, hc, Site.load, hload]
    cases admission with
    | admitted c' m =>
      obtain ⟨hactive, d, hjoins⟩ := LoadContext.joins_of_load (congrArg Prod.fst hload)
      have hcontext := hjoins.context_eq
      exact .joins hc hactive (by rw [hcontext]; exact hactive) (by rw [hcontext]) hjoins.lease_eq
        (hset c' (by rw [hcontext]))
    | crashed c' =>
      -- the context may have more exports, and owns what it did
      have hcontext := LoadContext.context_of_crashed (congrArg Prod.fst hload)
      refine .rests ⟨rfl, rfl, rfl, rfl, fun _ => rfl, fun id => ?_⟩
      simp only [Site.settle]
      rw [hset c' (by rw [hcontext])]
      split
      · subst id
        rw [hfound, hcontext]
        rfl
      · rfl
    | refused | waiting => exact .rests ⟨rfl, rfl, rfl, rfl, fun _ => rfl, fun _ => rfl⟩

theorem moves_unload (r : LeaseRun β) (id : ContextId) : r.Moves (r.step (.unload id)) := by
  cases hc : r.context? id with
  | none => simpa [step, hc] using .rests (.refl r)
  | some c =>
    obtain ⟨-, hfound, rfl⟩ := context?_eq_some hc
    simp only [step, hc, Site.unload_eq r.shared hfound]
    exact .releases hc rfl rfl (context?_setContext_eq hfound rfl)

section Absent

variable (habsent : ∀ id, r.site.context? id = none → r.joined id = [] ∧ r.unloads id = 0)
include habsent

/-- A context in which nothing has been loaded is one more context. -/
theorem opens_empty {site : Site β} {custody : Custody β} (hgains : r.site.Gains site c)
    (howned : c.modules = []) (hactive : c.unloaded = false)
    (hheld : custody.held = r.custody.held)
    (hcontexts : ∀ id, id ≠ c.id → custody.holdsContext id = r.custody.holdsContext id) :
    r.Opens { r with site, custody } c := by
  obtain ⟨hjoined, hunloads⟩ := habsent c.id hgains.absent
  exact
    { gains := hgains
      others := fun id hne => ⟨rfl, rfl, hcontexts id hne⟩
      held := by simp [hheld, hjoined]
      counts := by
        funext lease
        simp [gain, hjoined, howned]
      owned := .inl howned
      modules := by simp [howned, hjoined]
      unloaded := by simp [hactive, hunloads]
      lease := .inl hjoined }

theorem moves_loadModule (source : ModuleSource β) (path : Path) :
    r.Moves (r.step (.loadModule source path)) := by
  simp only [step]
  rcases loadModule_tellsContext source r.site path with
    ⟨record, c, site, hload, hgains, hkeeps⟩ | ⟨c, site, hload, hgains, howned, hactive, -⟩
  · have hid : (r.site.createContext source).1.id = c.id := hgains.id_eq.symm
    rw [hload, hid]
    refine .opens
      { gains := hgains
        others := fun id hne => ⟨by simp [hne], by simp [hne], ?_⟩
        held := by simp [Custody.held_addRecord]
        counts := by simp [hkeeps.owned]
        owned := .inr (by simp [Custody.holdsContext_addRecord, hkeeps.context_eq])
        modules := ?_
        unloaded := ?_
        lease := by simpa using hkeeps.held }
    · simp [Custody.holdsContext_addRecord, hkeeps.context_eq, Ne.symm hne]
    · rw [hkeeps.owned]
      cases hmodule : record.module? with
      | none => simp [ModuleRecord.isLoaded, hmodule]
      | some m =>
        -- a module that was loaded is all that the record holds
        have hloaded : record.isLoaded = true := by simp [ModuleRecord.isLoaded, hmodule]
        simp [ModuleRecord.held, hmodule, hloaded, hkeeps.residue hloaded]
    · rw [hkeeps.unloaded]
      cases hloaded : record.isLoaded <;> simp [hloaded]
  · rw [hload]
    exact .opens (opens_empty habsent hgains howned hactive rfl fun _ _ => rfl)

/-- **Every step does one of these.** -/
theorem moves_step (step : LeaseStep β) : r.Moves (r.step step) := by
  cases step with
  | rearrange container host files linker =>
    exact .rests ⟨rfl, rfl, rfl, rfl, fun _ => rfl, fun _ => rfl⟩
  | create source =>
    refine .opens (opens_empty habsent (r.site.gains_createContext source) rfl rfl rfl
      fun id hne => ?_)
    have happend := r.custody.holdsContext_append (r.site.createContext source).1.id id
    rwa [decide_eq_false hne, Bool.or_false] at happend
  | cloneContext id =>
    cases hc : r.context? id with
    | none => simpa [LeaseRun.step, hc] using .rests (.refl r)
    | some c =>
      obtain ⟨hheld, -, rfl⟩ := context?_eq_some hc
      simp only [LeaseRun.step, hc]
      refine .rests ⟨rfl, rfl, rfl, rfl, fun id => ?_, fun _ => rfl⟩
      rw [Custody.holdsContext_append]
      by_cases hid : id = c.id <;> simp [hid, hheld]
  | dropContext id =>
    refine .leaves ?_ (fun other hne => Custody.holdsContext_erase_of_ne ?_)
      fun other => Custody.holdsContext_of_erase
    · rw [List.append_nil]
      rfl
    · simpa using hne
  | load id path => exact r.moves_load id path
  | modules id => exact .takes fun m hm => .inr ⟨id, hm⟩
  | clone place =>
    exact .takes fun m hm => .inl (Custody.mem_held_of_handle? (Option.mem_toList.1 hm))
  | drop place =>
    cases hm : r.custody.handle? place with
    | none => simpa [LeaseRun.step, hm] using .rests (.refl r)
    | some m =>
      simp only [LeaseRun.step, hm]
      exact .leaves (Custody.held_dropHandle hm) (fun _ _ => rfl) fun _ h => h
  | unload id => exact r.moves_unload id
  | loadModule source path => exact moves_loadModule habsent source path
  | cloneRecord place =>
    refine .takes fun m hm => .inl ?_
    obtain ⟨record, hrecord, hmodule⟩ := Option.bind_eq_some_iff.1 (Option.mem_toList.1 hm)
    refine Custody.mem_held_of_record? hrecord (List.mem_append_left _ ?_)
    simp [hmodule]
  | dropRecord place =>
    cases hrecord : r.custody.record? place with
    | none => simpa [LeaseRun.step, hrecord] using .rests (.refl r)
    | some record =>
      simp only [LeaseRun.step, hrecord]
      have hcontexts := Custody.holdsContext_dropRecord hrecord
      refine .leaves (Custody.held_dropRecord hrecord) (fun other hne => ?_) fun other h => ?_
      · rw [hcontexts]
        simp [Ne.symm hne]
      · rw [hcontexts, h]
        rfl

end Absent

end LeaseRun

end ModularHost
