import Mathlib.Data.List.Forall2
import ModularHost.Proofs.Module.Admission
/-!
# What the modules of one context agree on

The host publishes types while modules are loaded into a context, in any order, and also while the
code of a module keeps an admission waiting. A module keeps the descriptors it was given, so the
modules of a context can come to disagree on a name in one way only: the context exported a type
under it, a module was given that export, and then the host published another type under the name.
The host's type wins from then on and the module keeps what it has (`Overtaken`). Short of that, the
modules agree with each other and with what the name stands for now (`agreesOn_iff`).
-/


namespace ModularHost

variable {β : Type}

/-! ## Publishing -/

namespace HostScope

variable {host host' : HostScope} {name : String} {type : TypeRef} {shared : SharedType}

/-- A type is published at the end, or the host stays as it was. -/
theorem provide_cases (h : host.provide name type = .ok (shared, host')) :
    host' = host ∨
      host.lookup name = none ∧ ∃ new : SharedType, new.name = name ∧
        host' = ⟨host.types ++ [new]⟩ := by
  unfold provide at h
  split at h
  · split at h
    · cases h
      exact .inl rfl
    · cases h
  · rename_i hnone
    cases h
    exact .inr ⟨hnone, _, rfl, rfl⟩

/-- **A published name keeps its type.** -/
theorem lookup_provide (h : host.provide name type = .ok (shared, host')) (name' : String)
    (old : SharedType) (hold : host.lookup name' = some old) : host'.lookup name' = some old := by
  rcases provide_cases h with rfl | ⟨-, new, -, rfl⟩
  · exact hold
  · exact (List.prefix_append host.types [new]).find?_eq_some hold

end HostScope

/-! ## Runs -/

/-- A load whose module keeps it waiting before the requirements and exports that are left. -/
structure PendingLoad (β : Type) where
  draft : Draft β
  requirements : List Describer
  exports : List Describer

/-- The code that keeps a load waiting comes to its answer. -/
def PendingLoad.letThrough (p : PendingLoad β) : PendingLoad β :=
  match p.requirements with
  | describer :: rest => { p with requirements := { describer with waits := false } :: rest }
  | [] => { p with exports := p.exports.modifyHead fun d => { d with waits := false } }

/-- A context beside the host. -/
structure ContextRun (β : Type) where
  host : HostScope
  context : LoadContext β
  /-- The load under way, which keeps the context to itself. -/
  pending : Option (PendingLoad β)
  /-- The declarations of the modules the context owns. Nothing reads them. -/
  declared : List (Declaration β)

/-- What can happen to it. -/
inductive ContextStep (β : Type) where
  | provide (name : String) (type : TypeRef)
  | load (gateOpen : Bool) (files : FileTree (Library β)) (linker : Linker β) (path : Path)
  /-- The load under way goes on, to where code waits again if the gate is shut. -/
  | resume (gateOpen : Bool)
  | resolveType (name : String)

namespace ContextRun

def start (host : HostScope) (id : ContextId) (source : ModuleSource β) : ContextRun β :=
  ⟨host, .new id source, none, []⟩

/-- What an admission of a declaration leaves. -/
def settle (r : ContextRun β) (declaration : Declaration β) : Admission β → ContextRun β
  | .admitted c _ =>
    { r with context := c, pending := none, declared := r.declared ++ [declaration] }
  | .refused _ => { r with pending := none }
  | .crashed c => { r with context := c, pending := none }
  | .waiting draft requirements exports =>
    { r with pending := some ⟨draft, requirements, exports⟩ }

def step (r : ContextRun β) : ContextStep β → ContextRun β
  | .provide name type =>
    match r.host.provide name type with
    | .ok (_, host) => { r with host }
    | .error _ => r
  | .load gateOpen files linker path =>
    match r.pending, (r.context.source.find files linker path).1 with
    | none, .ok declaration =>
      r.settle declaration (r.context.load gateOpen r.host files linker path).1
    | _, _ => r
  | .resume gateOpen =>
    match r.pending with
    | none => r
    | some p =>
      let p := p.letThrough
      r.settle p.draft.declaration
        (p.draft.requireAll gateOpen r.host p.exports p.requirements)
  | .resolveType _ => r

def run (r : ContextRun β) (steps : List (ContextStep β)) : ContextRun β :=
  steps.foldl step r

/-- What the owned modules were given under a name. -/
def givenUnder (r : ContextRun β) (name : String) : List SharedType :=
  (r.context.modules.flatMap (·.dependencies)).filter (·.name == name)

/-- All modules that were given a type under a name were given the same, and the name stands for
that type now. -/
def AgreesOn (r : ContextRun β) (name : String) : Prop :=
  (∀ a ∈ r.givenUnder name, ∀ b ∈ r.givenUnder name, a.type.same b.type = true) ∧
  ∀ a ∈ r.givenUnder name,
    (r.context.resolveType r.host name).any (fun now => now.type.same a.type) = true

/-- A module was given the context's export, and now the host has another type of that name. -/
def Overtaken (r : ContextRun β) (name : String) : Prop :=
  ∃ given ∈ r.givenUnder name, r.context.exported name = some given ∧
    ∃ now, r.host.lookup name = some now ∧ now.type.same given.type = false

instance (r : ContextRun β) (name : String) : Decidable (r.AgreesOn name) :=
  inferInstanceAs (Decidable (_ ∧ _))

/-! ## What every run keeps -/

/-- Each owned module was given one descriptor for each name it requires, and each descriptor is
still the host's or the context's for its name. The same holds of the load under way. -/
structure Coherent (r : ContextRun β) : Prop where
  known : ∀ m ∈ r.context.modules, ∀ shared ∈ m.dependencies, r.context.Knows r.host shared
  yields : List.Forall₂ Declaration.Yields r.declared r.context.modules
  pending : ∀ p, r.pending = some p →
    p.draft.Follows r.host r.context p.draft.path p.draft.declaration p.requirements

variable {r : ContextRun β}

theorem coherent_start (host : HostScope) (id : ContextId) (source : ModuleSource β) :
    (start host id source).Coherent where
  known := by simp [start, LoadContext.new]
  yields := .nil
  pending := by simp [start]

/-- Whatever an admission comes to, the run stays coherent. -/
theorem Coherent.settle (h : r.Coherent) (path : Path) {declaration : Declaration β}
    {admission : Admission β} (ha : admission.Follows r.host r.context path declaration) :
    (r.settle declaration admission).Coherent := by
  cases admission with
  | admitted c m =>
    have hmodules : c.modules = r.context.modules ++ [m] := by rw [ha.context_eq]
    refine ⟨fun m' hm' shared hs => ?_, ?_, by simp [ContextRun.settle]⟩
    · have hmem : m' ∈ r.context.modules ++ [m] := hmodules ▸ hm'
      rcases List.mem_append.1 hmem with hmem | hmem
      · exact (h.known m' hmem shared hs).mono ha.exports fun _ _ hl => hl
      · rw [List.mem_singleton.1 hmem] at hs
        exact ha.known shared hs
    · have hlast : List.Forall₂ Declaration.Yields [declaration] [m] := .cons ha.yields .nil
      simpa [ContextRun.settle, hmodules] using List.rel_append h.yields hlast
  | refused cause => exact ⟨h.known, h.yields, by simp [ContextRun.settle]⟩
  | crashed c =>
    have hmodules : c.modules = r.context.modules := by rw [ha.1]
    refine ⟨fun m hm shared hs => ?_, ?_, by simp [ContextRun.settle]⟩
    · have hm' : m ∈ r.context.modules := hmodules ▸ hm
      exact (h.known m hm' shared hs).mono ha.2 fun _ _ hl => hl
    · simpa [ContextRun.settle, hmodules] using h.yields
  | waiting draft requirements exports =>
    refine ⟨h.known, h.yields, ?_⟩
    rintro p ⟨⟩
    obtain rfl := ha.path_eq
    obtain rfl := ha.declaration_eq
    exact ha

/-- Letting code come to its answer leaves the names it was asked for. -/
theorem follows_letThrough (h : r.Coherent) {p : PendingLoad β} (hp : r.pending = some p) :
    p.letThrough.draft.Follows r.host r.context p.letThrough.draft.path
      p.letThrough.draft.declaration p.letThrough.requirements := by
  have hf := h.pending p hp
  unfold PendingLoad.letThrough
  split
  · rename_i describer rest hreq
    rw [hreq] at hf
    exact { hf with names := hf.names }
  · exact hf

/-- **Every step keeps a run coherent.** -/
theorem Coherent.step (h : r.Coherent) (s : ContextStep β) : (r.step s).Coherent := by
  cases s with
  | provide name type =>
    rcases hprovide : r.host.provide name type with e | ⟨shared, host⟩
    · simpa only [ContextRun.step, hprovide] using h
    · simp only [ContextRun.step, hprovide]
      -- the host only gains a name, so every descriptor stands for what it stood for
      have hkeeps := HostScope.lookup_provide hprovide
      exact
        { known := fun m hm s hs => (h.known m hm s hs).mono List.prefix_rfl hkeeps
          yields := h.yields
          pending := fun p hp => (h.pending p hp).mono hkeeps }
  | load gateOpen files linker path =>
    simp only [ContextRun.step]
    split
    · rename_i declaration hpending hfind
      rcases r.context.load_cases gateOpen r.host files linker path with
        ⟨cause, hload⟩ | ⟨d, hd, hload⟩
      · rw [hload]
        exact h.settle path trivial
      · rw [hfind] at hd
        cases hd
        rw [hload]
        exact h.settle path (r.context.follows_accept gateOpen r.host path declaration)
    · exact h
  | resume gateOpen =>
    simp only [ContextRun.step]
    split
    · exact h
    · rename_i p hp
      exact h.settle _ ((follows_letThrough h hp).requireAll gateOpen _ _)
  | resolveType name => exact h

theorem Coherent.run (h : r.Coherent) (steps : List (ContextStep β)) : (r.run steps).Coherent := by
  induction steps generalizing r with
  | nil => exact h
  | cons s rest ih => exact ih (h.step s)

/-! ## Agreement -/

theorem Coherent.known_of_givenUnder (h : r.Coherent) {name : String} {shared : SharedType}
    (hs : shared ∈ r.givenUnder name) :
    r.host.lookup name = some shared ∨ r.context.exported name = some shared := by
  obtain ⟨hmem, hname⟩ := List.mem_filter.1 hs
  obtain ⟨m, hm, hdep⟩ := List.mem_flatMap.1 hmem
  have hname' : shared.name = name := by simpa using hname
  exact hname' ▸ h.known m hm shared hdep

/-- What was given and was not overtaken is what the name stands for now. -/
theorem Coherent.resolveType_of_givenUnder (h : r.Coherent) {name : String}
    (hno : ¬ r.Overtaken name) {s : SharedType} (hs : s ∈ r.givenUnder name) :
    (r.context.resolveType r.host name).any (fun now => now.type.same s.type) = true := by
  unfold LoadContext.resolveType
  rcases h.known_of_givenUnder hs with hhost | hexport
  · simp [hhost, TypeRef.same]
  · cases hhost : r.host.lookup name with
    | none =>
      -- the host has no such type, so the export is what the name stands for
      have hfind : r.context.exports.find? (·.name == name) = some s := hexport
      simp [hfind, TypeRef.same]
    | some now =>
      -- both have the name, and the host's type cannot be another
      cases hsame : now.type.same s.type with
      | true => simpa using hsame
      | false => exact absurd ⟨s, hs, hexport, now, hhost, hsame⟩ hno

/-- **The modules of a context agree on a name unless its export was overtaken.** In every run of
publications, loads and resolutions: each module owned was given one descriptor for each name it
requires; what was given under a name is the host's type of that name now, or the context's export;
and all that was given under it is of one type, which the name also stands for now, exactly unless
some of it is the context's export while the host has published another type since. -/
theorem agreesOn_iff (host : HostScope) (id : ContextId) (source : ModuleSource β)
    (steps : List (ContextStep β)) :
    let r := (start host id source).run steps
    List.Forall₂ Declaration.Yields r.declared r.context.modules ∧
    (∀ name, ∀ shared ∈ r.givenUnder name,
      r.host.lookup name = some shared ∨ r.context.exported name = some shared) ∧
    ∀ name, r.AgreesOn name ↔ ¬ r.Overtaken name := by
  intro r
  have h : r.Coherent := (coherent_start host id source).run steps
  refine ⟨h.yields, fun name shared => h.known_of_givenUnder, fun name => ⟨?_, fun hno => ?_⟩⟩
  · rintro ⟨-, hnow⟩ ⟨given, hgiven, -, now, hhost, hother⟩
    have hsame := hnow given hgiven
    simp [LoadContext.resolveType, hhost, hother] at hsame
  · have hnow := fun shared => h.resolveType_of_givenUnder hno (s := shared)
    refine ⟨fun a ha b hb => ?_, hnow⟩
    have hna := hnow a ha
    have hnb := hnow b hb
    cases hres : r.context.resolveType r.host name with
    | none => simp [hres] at hna
    | some now =>
      simp only [hres, Option.any_some, TypeRef.same_iff] at hna hnb ⊢
      rw [← hna, hnb]

/-- One module exports `Weather`, one was built against that type, and one against another type of
that name. -/
def weatherModules : ModuleTable Unit :=
  ⟨[⟨hostAbi, "weather", "1", [], [⟨false, .ok ⟨"Weather", ⟨1, "Weather"⟩⟩⟩], []⟩,
    ⟨hostAbi, "almanac", "1", [⟨false, .ok ⟨"Weather", ⟨1, "Weather"⟩⟩⟩], [], []⟩,
    ⟨hostAbi, "forecast", "1", [⟨false, .ok ⟨"Weather", ⟨2, "Terrain"⟩⟩⟩], [], []⟩]⟩

/-- The host publishes the other type after the first two modules were loaded. -/
def latePublication : ContextRun Unit :=
  (start .empty ⟨0⟩ (.linked weatherModules)).run
    [.load true .empty .empty ⟨"weather.module"⟩, .load true .empty .empty ⟨"almanac.module"⟩,
      .provide "Weather" ⟨2, "Terrain"⟩]

/-- The module loaded before keeps the export, and the name stands for the host's type; a module
loaded after is given that type. -/
theorem latePublication_not_agreesOn :
    ¬ latePublication.AgreesOn "Weather" ∧
    ((latePublication.step (.load true .empty .empty ⟨"forecast.module"⟩)).givenUnder
      "Weather").map (·.type.identity) = [1, 2] := by
  constructor
  · decide +kernel
  · decide +kernel

end ContextRun
end ModularHost
