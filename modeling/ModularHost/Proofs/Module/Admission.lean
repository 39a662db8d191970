import ModularHost.Module.Context
/-!
# Admissions

What an admission comes to, whether it runs through or is stopped at the gate and goes on later.
It may publish exports in its context, and does nothing else to it but let the module join
(`Draft.Follows`, `LoadContext.Admits`). The descriptors a module is given carry the names it
requires, in their order, and each is what its name stood for at the time: the host's type, or else
the context's export.
-/


namespace ModularHost

variable {β : Type}

/-- The name of the type that is described, unless the code panics. -/
def Describer.wanted? (d : Describer) : Option String := d.answer.toOption.map (·.name)

/-- The names that are described, in order. -/
def wantedNames (describers : List Describer) : List String :=
  describers.filterMap (·.wanted?)

/-- The names of the types a module requires. -/
def Declaration.requiredNames (d : Declaration β) : List String := wantedNames d.requirements

/-- A module is the one of a declaration, and was given a type for each name that requires. -/
structure Declaration.Yields (d : Declaration β) (m : LoadedModule β) : Prop where
  name : m.name = d.name
  registration : m.registration = d.registration
  dependencies : m.dependencies.map (·.name) = d.requiredNames

/-- The type a context exports under a name. -/
def LoadContext.exported (c : LoadContext β) (name : String) : Option SharedType :=
  c.exports.find? (·.name == name)

/-- Whether a descriptor is what its name stands for: as the host's type or as the context's. -/
def LoadContext.Knows (c : LoadContext β) (host : HostScope) (shared : SharedType) : Prop :=
  host.lookup shared.name = some shared ∨ c.exported shared.name = some shared

/-- An admission into a context has done nothing but add exports, and has found what the
requirements up to those left stand for. -/
structure Draft.Follows (d : Draft β) (host : HostScope) (c : LoadContext β) (path : Path)
    (declaration : Declaration β) (left : List Describer) : Prop where
  path_eq : d.path = path
  declaration_eq : d.declaration = declaration
  context_eq : d.context = { c with exports := d.context.exports }
  exports : c.exports <+: d.context.exports
  known : ∀ shared ∈ d.dependencies, d.context.Knows host shared
  names : d.dependencies.map (·.name) ++ wantedNames left = declaration.requiredNames

/-- A context takes in the module of a declaration. -/
structure LoadContext.Admits (c : LoadContext β) (host : HostScope) (path : Path)
    (declaration : Declaration β) (c' : LoadContext β) (m : LoadedModule β) : Prop where
  context_eq : c' = { c with modules := c.modules ++ [m], exports := c'.exports }
  exports : c.exports <+: c'.exports
  known : ∀ shared ∈ m.dependencies, c'.Knows host shared
  yields : declaration.Yields m
  owner_eq : m.context = c.id
  path_eq : m.path = path

/-- What an admission of a declaration may come to. -/
def Admission.Follows (host : HostScope) (c : LoadContext β) (path : Path)
    (declaration : Declaration β) : Admission β → Prop
  | .admitted c' m => c.Admits host path declaration c' m
  | .refused _ => True
  | .crashed c' => c' = { c with exports := c'.exports } ∧ c.exports <+: c'.exports
  | .waiting d left _ => d.Follows host c path declaration left

/-! ## What a name stands for -/

namespace HostScope

variable {host : HostScope} {name : String} {shared : SharedType}

theorem name_of_lookup (h : host.lookup name = some shared) : shared.name = name := by
  simpa using List.find?_some h

end HostScope

namespace LoadContext

variable {c c' : LoadContext β} {host host' : HostScope} {name : String} {shared : SharedType}

theorem name_of_exported (h : c.exported name = some shared) : shared.name = name := by
  simpa using List.find?_some h

/-- The host's type comes first, and then the context's. -/
theorem resolveType_eq_some (h : c.resolveType host name = some shared) :
    shared.name = name ∧ c.Knows host shared := by
  rw [resolveType, Option.or_eq_some_iff] at h
  rcases h with h | ⟨-, h⟩
  · have hname := HostScope.name_of_lookup h
    exact ⟨hname, .inl (by rw [hname, h])⟩
  · have hname := name_of_exported h
    exact ⟨hname, .inr (by rw [hname]; exact h)⟩

/-- **A name goes on standing for its descriptor** while exports and host types are only added. -/
theorem Knows.mono (h : c.Knows host shared) (hexports : c.exports <+: c'.exports)
    (hhost : ∀ name shared, host.lookup name = some shared → host'.lookup name = some shared) :
    c'.Knows host' shared := by
  rcases h with h | h
  · exact .inl (hhost _ _ h)
  · exact .inr (hexports.find?_eq_some h)

end LoadContext

/-! ## An admission, step by step -/

namespace Draft

variable {d : Draft β} {host host' : HostScope} {c : LoadContext β} {path : Path}
  {declaration : Declaration β} {left : List Describer} {describer : Describer}
  {shared : SharedType} {wanted : NamedType}

theorem Follows.mono (h : d.Follows host c path declaration left)
    (hhost : ∀ name shared, host.lookup name = some shared → host'.lookup name = some shared) :
    d.Follows host' c path declaration left :=
  { h with known := fun s hs => (h.known s hs).mono List.prefix_rfl hhost }

/-- An export is added at the end, or left out. -/
theorem context_offer (d : Draft β) (host : HostScope) (offered : NamedType) :
    (d.offer host offered).context
        = { d.context with exports := (d.offer host offered).context.exports } ∧
      d.context.exports <+: (d.offer host offered).context.exports := by
  unfold offer
  split
  · exact ⟨rfl, List.prefix_rfl⟩
  · exact ⟨rfl, List.prefix_append _ _⟩

theorem frame_offer (d : Draft β) (host : HostScope) (offered : NamedType) :
    (d.offer host offered).path = d.path ∧
      (d.offer host offered).declaration = d.declaration ∧
      (d.offer host offered).dependencies = d.dependencies := by
  unfold offer
  split <;> exact ⟨rfl, rfl, rfl⟩

theorem Follows.offer (h : d.Follows host c path declaration left) (offered : NamedType) :
    (d.offer host offered).Follows host c path declaration left := by
  obtain ⟨hcontext, hexports⟩ := d.context_offer host offered
  obtain ⟨hpath, hdecl, hdeps⟩ := d.frame_offer host offered
  exact
    { path_eq := hpath.trans h.path_eq
      declaration_eq := hdecl.trans h.declaration_eq
      context_eq := by rw [hcontext, h.context_eq]
      exports := h.exports.trans hexports
      known := fun s hs => (h.known s (hdeps ▸ hs)).mono hexports fun _ _ hl => hl
      names := by rw [hdeps]; exact h.names }

/-- A requirement that is met hands the module its descriptor. -/
theorem Follows.require (h : d.Follows host c path declaration (describer :: left))
    (hw : describer.answer = .ok wanted)
    (hs : d.context.resolveType host wanted.name = some shared) :
    ({ d with dependencies := d.dependencies ++ [shared] } : Draft β).Follows host c path
      declaration left := by
  obtain ⟨hname, hknown⟩ := LoadContext.resolveType_eq_some hs
  refine { h with known := fun s hmem => ?_, names := ?_ }
  · rcases List.mem_append.1 hmem with hmem | hmem
    · exact h.known s hmem
    · rw [List.mem_singleton.1 hmem]
      exact hknown
  · have hwanted : describer.wanted? = some shared.name := by
      simp [Describer.wanted?, hw, hname, Except.toOption]
    have hnames := h.names
    simpa [wantedNames, hwanted] using hnames

/-- A module joins with all it was given. -/
theorem Follows.finish (h : d.Follows host c path declaration []) :
    d.finish.Follows host c path declaration := by
  have hdeps : d.dependencies.map (·.name) = declaration.requiredNames := by
    simpa [wantedNames] using h.names
  exact
    { context_eq := by rw [h.context_eq]
      exports := h.exports
      known := h.known
      yields := ⟨by rw [h.declaration_eq], by rw [h.declaration_eq], hdeps⟩
      owner_eq := by rw [h.context_eq]
      path_eq := h.path_eq }

theorem Follows.offerAll (gateOpen : Bool) (exports : List Describer) :
    ∀ {d : Draft β}, d.Follows host c path declaration [] →
      (d.offerAll gateOpen host exports).Follows host c path declaration := by
  induction exports with
  | nil => intro d h; exact h.finish
  | cons describer rest ih =>
    intro d h
    unfold Draft.offerAll
    split
    · exact h
    · split
      · exact ⟨h.context_eq, h.exports⟩
      · exact ih (h.offer _)

/-- **An admission goes by its draft**, from wherever it stands. -/
theorem Follows.requireAll (gateOpen : Bool) (exports left : List Describer) :
    ∀ {d : Draft β}, d.Follows host c path declaration left →
      (d.requireAll gateOpen host exports left).Follows host c path declaration := by
  induction left with
  | nil => intro d h; exact h.offerAll gateOpen exports
  | cons describer rest ih =>
    intro d h
    unfold Draft.requireAll
    split
    · exact h
    · split
      · exact ⟨h.context_eq, h.exports⟩
      · rename_i wanted hw
        -- the name is looked up now, whatever it stood for before the wait
        split
        · trivial
        · rename_i shared hs
          split
          · exact ih (h.require hw hs)
          · trivial

end Draft

/-! ## How an admission ends -/

/-- Whether a cause comes from a module's registration, and not from anything before it. -/
def LoadCause.ofRegistration : LoadCause → Bool
  | .registration _ | .panicked _ => true
  | _ => false

/-- An admission that nothing keeps waiting comes to its end. It is never refused for what only a
registration can do, and breaks down only where code that describes a type panics. -/
def Admission.Ends (describers : List Describer) : Admission β → Prop
  | .admitted _ _ => True
  | .refused cause => cause.ofRegistration = false
  | .crashed _ => ∃ describer ∈ describers, ∃ p, describer.answer = .error p
  | .waiting .. => False

theorem Admission.Ends.mono {describers describers' : List Describer} {admission : Admission β}
    (h : admission.Ends describers) (hsub : describers ⊆ describers') :
    admission.Ends describers' := by
  cases admission with
  | crashed c =>
    obtain ⟨describer, hmem, hp⟩ := h
    exact ⟨describer, hsub hmem, hp⟩
  | admitted | refused | waiting => exact h

namespace Draft

variable {host : HostScope}

theorem ends_offerAll (exports : List Describer) :
    ∀ d : Draft β, (d.offerAll true host exports).Ends exports := by
  induction exports with
  | nil => intro d; trivial
  | cons describer rest ih =>
    intro d
    unfold Draft.offerAll
    rw [if_neg (by simp)]
    split
    · exact ⟨describer, List.mem_cons_self, _, ‹_›⟩
    · exact (ih _).mono (List.subset_cons_self _ _)

theorem ends_requireAll (exports left : List Describer) :
    ∀ d : Draft β, (d.requireAll true host exports left).Ends (left ++ exports) := by
  induction left with
  | nil => intro d; exact d.ends_offerAll exports
  | cons describer rest ih =>
    intro d
    unfold Draft.requireAll
    rw [if_neg (by simp)]
    split
    · exact ⟨describer, List.mem_cons_self, _, ‹_›⟩
    · split
      · rfl
      · split
        · exact (ih _).mono (List.subset_cons_self _ _)
        · rfl

end Draft

namespace LoadContext

variable {c : LoadContext β} {host : HostScope} {t : ModuleTable β}

theorem ends_accept (c : LoadContext β) (host : HostScope) (path : Path) (d : Declaration β) :
    (c.accept true host path d).Ends (d.requirements ++ d.exports) := by
  unfold accept
  split
  · rfl
  · split
    · rfl
    · split
      · rfl
      · split
        · rfl
        · exact Draft.ends_requireAll d.exports d.requirements _

theorem follows_accept (c : LoadContext β) (gateOpen : Bool) (host : HostScope) (path : Path)
    (declaration : Declaration β) :
    (c.accept gateOpen host path declaration).Follows host c path declaration := by
  unfold accept
  split
  · trivial
  · split
    · trivial
    · split
      · trivial
      · split
        · trivial
        · refine Draft.Follows.requireAll gateOpen declaration.exports declaration.requirements
            { path_eq := rfl, declaration_eq := rfl, context_eq := rfl, exports := List.prefix_rfl
              known := by simp, names := ?_ }
          rfl

/-- **A load from a table admits what the table has for the path**, or is refused without it. -/
theorem load_linked (h : c.source = .linked t) (hu : c.unloaded = false) (gateOpen : Bool)
    (host : HostScope) (files : FileTree (Library β)) (linker : Linker β) (path : Path) :
    (∃ d, t.findForPath path = some d ∧
      c.load gateOpen host files linker path = (c.accept gateOpen host path d, linker)) ∨
    ∃ cause, cause.ofRegistration = false ∧
      c.load gateOpen host files linker path = (.refused cause, linker) := by
  unfold load
  rw [hu, h]
  cases hd : t.findForPath path with
  | some d => exact .inl ⟨d, rfl, by simp [ModuleSource.find, hd]⟩
  | none =>
    refine .inr ?_
    by_cases hf : files.isFile path = true
    · exact ⟨.malformed (.notLinked (String.ofList (path.fileName?.getD []))), rfl,
        by simp [ModuleSource.find, hd, hf]⟩
    · exact ⟨.missing, rfl, by simp [ModuleSource.find, hd, hf]⟩

/-- **A load is refused before it has a declaration, or is the admission of the one it finds.** -/
theorem load_cases (c : LoadContext β) (gateOpen : Bool) (host : HostScope)
    (files : FileTree (Library β)) (linker : Linker β) (path : Path) :
    (∃ cause, (c.load gateOpen host files linker path).1 = .refused cause) ∨
    ∃ declaration, (c.source.find files linker path).1 = .ok declaration ∧
      (c.load gateOpen host files linker path).1 = c.accept gateOpen host path declaration := by
  unfold load
  split
  · exact .inl ⟨_, rfl⟩
  · rcases c.source.find files linker path with ⟨cause | declaration, linker'⟩
    · exact .inl ⟨cause, rfl⟩
    · exact .inr ⟨declaration, rfl, rfl⟩

end LoadContext
end ModularHost
