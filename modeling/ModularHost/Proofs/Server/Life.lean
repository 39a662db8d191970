import ModularHost.Proofs.Connector.Resolutions
import ModularHost.Proofs.Server.Loads
import ModularHost.Proofs.Server.Start
/-!
# The life of a server

A server with linked modules may be told to load more at any time: any path, or once more all that
is linked. Each attempt leaves one record behind those that there were. The first path that stands
for the linked module has it loaded, and all that follow run into the names of its services; no
other path can load anything (`ModuleRecord.Fares`). So what a server has comes to is a matter of
the paths that were attempted (`Server.HasAttempted`), and loading what is loaded already does no
harm.
-/


namespace ModularHost

/-! ## Records -/

/-- **How the load of a path fares**, by the paths that were attempted before it. -/
structure ModuleRecord.Fares (r : ModuleRecord Implementation) (site : Site Implementation)
    (earlier : List Path) (path : Path) : Prop where
  path_eq : r.path = path
  /-- A path that stands for nothing is missing, or a file that is no module. -/
  unlinked : path.isLinked = false →
    r.outcome = .error .missing ∨ ∃ name, r.outcome = .error (.malformed (.notLinked name))
  /-- The first path that stands for the module has it loaded. -/
  first : path.isLinked = true → earlier.any (·.isLinked) = false → r.isLoaded = true
  /-- Any later one runs into the name of its first service. -/
  again : path.isLinked = true → earlier.any (·.isLinked) = true → r.outcome =
    .error (.registration (.duplicateName assetServiceContract.name memoryServiceName))
  /-- The context of a module that was loaded owns it alone; any other is unloaded. -/
  context : ∃ c, r.context = some c.id ∧ site.context? c.id = some c ∧
    (∀ m, r.outcome = .ok m → c.unloaded = false ∧ c.modules = [m]) ∧
    (r.isLoaded = false → c.Closed)

/-- What stays of a site while modules are loaded: the contexts, and the container once it holds the
services. -/
structure Site.Lasts (s s' : Site Implementation) : Prop where
  contexts : ∀ id c, s.context? id = some c → s'.context? id = some c
  container : s.container.Stocked true → s'.container = s.container

variable {site site' : Site Implementation}

theorem Site.Lasts.trans {site'' : Site Implementation} (h : site.Lasts site')
    (h' : site'.Lasts site'') : site.Lasts site'' where
  contexts id c hc := h'.contexts id c (h.contexts id c hc)
  container hc := (h'.container (h.container hc ▸ hc)).trans (h.container hc)

theorem ModuleRecord.Fares.mono {r : ModuleRecord Implementation} {earlier : List Path}
    {path : Path} (h : r.Fares site earlier path)
    (hcontexts : ∀ id c, site.context? id = some c → site'.context? id = some c) :
    r.Fares site' earlier path := by
  obtain ⟨c, hid, hc, hrest⟩ := h.context
  exact { h with context := ⟨c, hid, hcontexts _ _ hc, hrest⟩ }

theorem ModuleRecord.isLoaded_of_ok {r : ModuleRecord Implementation}
    {m : LoadedModule Implementation} (h : r.outcome = .ok m) : r.isLoaded = true := by
  simp [isLoaded, module?, h, Except.toOption]

theorem ModuleRecord.isLoaded_of_error {r : ModuleRecord Implementation} {cause : LoadCause}
    (h : r.outcome = .error cause) : r.isLoaded = false := by
  simp [isLoaded, module?, h, Except.toOption]

/-- **One load**: its record fares as the paths before say, and the site lasts. -/
theorem Work.fares (gateOpen : Bool) (path : Path) {earlier : List Path}
    (hhost : site.host = frameworkScope)
    (hstocked : site.container.Stocked (earlier.any (·.isLinked))) :
    ∃ r site', advance gateOpen (.linked linkedModules) site (.queued path) =
        (.finished r, site') ∧ r.Fares site' earlier path ∧ site.Lasts site' ∧
      site'.host = frameworkScope ∧ site'.container.Stocked ((earlier ++ [path]).any (·.isLinked)) ∧
      r.isLoaded = (path.isLinked && !earlier.any (·.isLinked)) := by
  -- what follows from the load having a context of its own
  have hown : ∀ {r : ModuleRecord Implementation} {site' : Site Implementation},
      Comes site path site' r → site'.host = frameworkScope ∧
      (∀ id c, site.context? id = some c → site'.context? id = some c) ∧
      ∃ c, r.context = some c.id ∧ site'.context? c.id = some c ∧
        (∀ m, r.outcome = .ok m → c.unloaded = false ∧ c.modules = [m]) ∧
        (r.isLoaded = false → c.Closed) := by
    rintro r site' ⟨-, c, hid, hgains, hrest⟩
    exact ⟨hgains.beside.host.trans hhost, fun _ _ => hgains.kept, c, hid, hgains.found, hrest⟩
  cases hlinked : path.isLinked with
  | false =>
    obtain ⟨r, site', cause, hadvance, hcomes, houtcome, hcause, hsame⟩ :=
      comes_unlinked gateOpen site hlinked
    obtain ⟨hhost', hcontexts, hcontext⟩ := hown hcomes
    have hnot : r.isLoaded = false := ModuleRecord.isLoaded_of_error houtcome
    refine ⟨r, site', hadvance, ⟨hcomes.path_eq, fun _ => ?_, fun hyes => by simp [hlinked] at hyes,
      fun hyes => by simp [hlinked] at hyes, hcontext⟩, ⟨hcontexts, fun _ => hsame⟩, hhost',
      by simpa [hsame, hlinked] using hstocked, by simp [hnot]⟩
    rcases hcause with rfl | ⟨name, rfl⟩
    · exact .inl houtcome
    · exact .inr ⟨name, houtcome⟩
  | true =>
    cases hany : earlier.any (·.isLinked) with
    | false =>
      rw [hany] at hstocked
      obtain ⟨r, site', m, hadvance, hcomes, houtcome, hfull⟩ :=
        comes_first gateOpen hhost hstocked hlinked
      obtain ⟨hhost', hcontexts, hcontext⟩ := hown hcomes
      have hyes : r.isLoaded = true := ModuleRecord.isLoaded_of_ok houtcome
      exact ⟨r, site', hadvance, ⟨hcomes.path_eq, fun hno => by simp [hlinked] at hno,
        fun _ _ => hyes, fun _ hno => by simp [hany] at hno, hcontext⟩,
        ⟨hcontexts, fun hno => absurd hstocked.eq_empty hno.not_empty⟩, hhost',
        by simpa [hlinked] using hfull, by simp [hyes]⟩
    | true =>
      rw [hany] at hstocked
      obtain ⟨r, site', hadvance, hcomes, houtcome, hsame⟩ :=
        comes_again gateOpen hhost hstocked hlinked
      obtain ⟨hhost', hcontexts, hcontext⟩ := hown hcomes
      have hnot : r.isLoaded = false := ModuleRecord.isLoaded_of_error houtcome
      exact ⟨r, site', hadvance, ⟨hcomes.path_eq, fun hno => by simp [hlinked] at hno,
        fun _ hno => by simp [hany] at hno, fun _ _ => houtcome, hcontext⟩,
        ⟨hcontexts, fun _ => hsame⟩, hhost', by simpa [hsame, hany] using hstocked, by simp [hnot]⟩

/-! ## After some attempts -/

/-- **Where a host with linked modules stands** after some paths have been attempted. -/
structure Loader.HasAttempted (l : Loader Implementation) (site : Site Implementation)
    (records : List (ModuleRecord Implementation)) (paths : List Path) : Prop where
  source : l.source = .linked linkedModules
  late : l.late = []
  host : site.host = frameworkScope
  stocked : site.container.Stocked (paths.any (·.isLinked))
  length : records.length = paths.length
  fares : ∀ (i : Nat) (r : ModuleRecord Implementation) (path : Path),
    records[i]? = some r → paths[i]? = some path → r.Fares site (paths.take i) path
  loaded : records.countP (·.isLoaded) = (paths.any (·.isLinked)).toNat

namespace Loader.HasAttempted

variable {l l' : Loader Implementation} {records : List (ModuleRecord Implementation)}
  {paths : List Path}

/-- The container and the files may be changed by others. -/
theorem beside (h : l.HasAttempted site records paths) (hcontexts : site'.contexts = site.contexts)
    (hhost : site'.host = site.host)
    (hstocked : site'.container.Stocked (paths.any (·.isLinked))) :
    l.HasAttempted site' records paths := by
  have hkept : ∀ id c, site.context? id = some c → site'.context? id = some c := by
    intro id c hc
    rwa [Site.context?, hcontexts]
  exact { h with
    host := hhost.trans h.host
    stocked := hstocked
    fares := fun i r path hr hpath => (h.fares i r path hr hpath).mono hkept }

/-- **One more attempt leaves one more record**, and whatever it comes to, the site lasts. -/
theorem loadWithin (h : l.HasAttempted site records paths) (gateOpen : Bool) (path : Path)
    (limit : Option Duration) : ∃ r l' site',
      l.loadWithin gateOpen site path limit = (some r, l', site') ∧
      l'.HasAttempted site' (records ++ [r]) (paths ++ [path]) ∧ site.Lasts site' := by
  obtain ⟨r, site', hadvance, hfares, hlasts, hhost, hstocked, hloaded⟩ :=
    Work.fares gateOpen path h.host h.stocked
  rw [← h.source] at hadvance
  obtain ⟨l', hwithin, hsource, hlate⟩ := Loader.loadWithin_of_finished hadvance limit
  refine ⟨r, l', site', hwithin, ⟨hsource.trans h.source, hlate.trans h.late, hhost, hstocked,
    by simp [h.length], fun i r' path' hr' hpath' => ?_, ?_⟩, hlasts⟩
  · rcases Nat.lt_trichotomy i paths.length with hlt | rfl | hgt
    · rw [List.getElem?_append_left (h.length ▸ hlt)] at hr'
      rw [List.getElem?_append_left hlt] at hpath'
      rw [List.take_append_of_le_length hlt.le]
      exact (h.fares i r' path' hr' hpath').mono hlasts.contexts
    · rw [← h.length, List.getElem?_concat_length, Option.some.injEq] at hr'
      rw [List.getElem?_concat_length, Option.some.injEq] at hpath'
      rw [List.take_left, ← hr', ← hpath']
      exact hfares
    · have hlong : (paths ++ [path]).length ≤ i := by
        simpa using Nat.succ_le_of_lt hgt
      rw [List.getElem?_eq_none hlong] at hpath'
      cases hpath'
  · rw [List.countP_append, h.loaded, List.any_append]
    cases hlinked : path.isLinked <;> cases hany : paths.any (·.isLinked) <;>
      simp [hloaded, hlinked, hany]

/-- The paths of a call that are let through are attempted in their order. -/
theorem loadPaths (gateOpen : Bool) (options : LoadOptions) (todo : List Path) :
    ∀ {l : Loader Implementation} {site : Site Implementation}
      {records : List (ModuleRecord Implementation)} {paths : List Path},
      l.HasAttempted site records paths → ∃ added l' site',
        l.loadPaths gateOpen site options todo = (added, l', site') ∧
        l'.HasAttempted site' (records ++ added) (paths ++ todo.filter options.admits) ∧
        site.Lasts site' := by
  induction todo with
  | nil =>
    intro l site records paths h
    exact ⟨[], l, site, rfl, by simpa using h, fun _ _ hc => hc, fun _ => rfl⟩
  | cons path rest ih =>
    intro l site records paths h
    unfold Loader.loadPaths
    by_cases hadmits : options.admits path = true
    · obtain ⟨r, l₁, site₁, hwithin, hone, hlasts⟩ := h.loadWithin gateOpen path options.timeout
      obtain ⟨added, l', site', hpaths, hall, hlasts'⟩ := ih hone
      refine ⟨r :: added, l', site', ?_, ?_, hlasts.trans hlasts'⟩
      · simp [hadmits, hwithin, hpaths]
      · rw [List.append_cons records, List.filter_cons_of_pos hadmits, List.append_cons paths]
        exact hall
    · rw [if_neg hadmits, List.filter_cons_of_neg hadmits]
      exact ih h

end Loader.HasAttempted

/-! ## Unloading -/

/-- Unloading a context leaves the others. -/
theorem Site.context?_unload {s : Site Implementation} {id : ContextId}
    {c : LoadContext Implementation} (held : Lease → Bool) (hc : s.context? id = some c)
    (other : ContextId) : ∃ c', (s.unload held other).2.context? id = some c' ∧
      (c.Closed ∨ id = other → c'.Closed) := by
  cases hfound : s.context? other with
  | none =>
    refine ⟨c, by simpa [Site.unload, hfound] using hc, ?_⟩
    rintro (hclosed | rfl)
    · exact hclosed
    · rw [hc] at hfound
      cases hfound
  | some o =>
    have hid : o.id = other := Site.id_of_context? hfound
    rw [Site.unload_eq held hfound]
    by_cases hother : id = other
    · refine ⟨(o.unload held).2, ?_, fun _ => o.closed_unload held⟩
      have hsome : (s.context? (o.unload held).2.id).isSome :=
        Option.isSome_of_eq_some (hid ▸ hfound : s.context? o.id = some o)
      rw [hother, ← hid]
      exact Site.context?_setContext hsome
    · refine ⟨c, ?_, fun h => h.resolve_right hother⟩
      have hne : (o.unload held).2.id ≠ id := fun h => hother (h.symm.trans hid)
      rwa [Site.context?_setContext_of_ne hne]

/-- **Every context that is unloaded in turn is closed in the end.** -/
theorem Site.closed_unloadAll (held : Lease → Bool) (ids : List ContextId) :
    ∀ {s : Site Implementation} {id : ContextId} {c : LoadContext Implementation},
      s.context? id = some c → c.Closed ∨ id ∈ ids →
      ∃ c', (ids.foldl (fun site id => (site.unload held id).2) s).context? id = some c' ∧
        c'.Closed := by
  induction ids with
  | nil =>
    intro s id c hc hclosed
    exact ⟨c, hc, hclosed.resolve_right (List.not_mem_nil)⟩
  | cons first rest ih =>
    intro s id c hc hclosed
    obtain ⟨c', hc', hthen⟩ := Site.context?_unload held hc first
    refine ih hc' ?_
    rcases hclosed with hclosed | hmem
    · exact .inl (hthen (.inl hclosed))
    · rcases List.mem_cons.1 hmem with hfirst | hrest
      · exact .inl (hthen (.inr hfirst))
      · exact .inr hrest

/-! ## Calls -/

/-- What may happen to a server that runs. -/
inductive ServerCall where
  | loadModule (gateOpen : Bool) (path : Path)
  | loadModules (gateOpen : Bool)
  /-- Whoever has the container uses it. -/
  | use (call : ContainerCall Implementation)
  /-- The files change. -/
  | rearrange (files : FileTree (Library Implementation))

/-- The paths that loading the linked modules attempts. -/
def ModuleSettings.attempts (s : ModuleSettings) : List Path :=
  (linkedModules.paths s.directory).filter s.loadOptions.admits

/-- The paths that a start attempts. -/
def ModuleSettings.startAttempts (s : ModuleSettings) : List Path :=
  if s.autoLoad then s.attempts else []

namespace ServerCall

/-- The call is not one that registers something in the container. -/
def Abstains : ServerCall → Prop
  | .use call => ¬ call.Registers
  | _ => True

/-- The call does not come from outside the server. -/
def IsLoad : ServerCall → Prop
  | .use _ => False
  | _ => True

/-- The paths that a call attempts. -/
def attempts (s : ModuleSettings) : ServerCall → List Path
  | .loadModule _ path => [path]
  | .loadModules _ => s.attempts
  | .use _ | .rearrange _ => []

end ServerCall

namespace Server

/-- A server after a call. -/
def perform (s : Server) : ServerCall → Server
  | .loadModule gateOpen path => (s.loadModule gateOpen path).2
  | .loadModules gateOpen => ((s.loadModules gateOpen).toOption.map (·.2)).getD s
  | .use call => { s with site := { s.site with container := (s.site.container.perform call).2 } }
  | .rearrange files => { s with site := { s.site with files } }

/-- A server after some calls. -/
def live (s : Server) (calls : List ServerCall) : Server := calls.foldl perform s

/-- A server with linked modules stands where its attempts have brought it. -/
structure HasAttempted (s : Server) (settings : Settings) (paths : List Path) : Prop where
  settings_eq : s.settings = settings
  linked : settings.modules.loader = .linked
  attempts : s.loader.HasAttempted s.site s.records paths

/-- What stays of a server while it runs. -/
structure Lasts (s s' : Server) : Prop where
  connectors : s'.connectors = s.connectors
  dispatcher : s'.dispatcher = s.dispatcher
  records : s.records <+: s'.records
  contexts : ∀ id c, s.site.context? id = some c → s'.site.context? id = some c
  stocked : s.site.container.Stocked true → s'.site.container.Stocked true

variable {s s' : Server} {settings : Settings} {paths : List Path}

theorem Lasts.refl (s : Server) : s.Lasts s :=
  ⟨rfl, rfl, List.prefix_rfl, fun _ _ hc => hc, id⟩

theorem Lasts.trans {s'' : Server} (h : s.Lasts s') (h' : s'.Lasts s'') : s.Lasts s'' where
  connectors := h'.connectors.trans h.connectors
  dispatcher := h'.dispatcher.trans h.dispatcher
  records := h.records.trans h'.records
  contexts id c hc := h'.contexts id c (h.contexts id c hc)
  stocked hc := h'.stocked (h.stocked hc)

/-- Loading the linked modules attempts what is let through of their paths. -/
theorem HasAttempted.loadModules (h : s.HasAttempted settings paths) (gateOpen : Bool) :
    ∃ loaded s', s.loadModules gateOpen = .ok (loaded, s') ∧
      s'.HasAttempted settings (paths ++ settings.modules.attempts) ∧ s.site.Lasts s'.site ∧
      s'.connectors = s.connectors ∧ s'.dispatcher = s.dispatcher ∧ s.records <+: s'.records := by
  obtain ⟨rfl, hlinked, hattempted⟩ := h
  obtain ⟨added, l, site, hloaded, hafter, hlasts⟩ := hattempted.loadPaths gateOpen
    s.settings.modules.loadOptions (linkedModules.paths s.settings.modules.directory)
  refine ⟨added.countP (·.isLoaded), { s with loader := l, site, records := s.records ++ added },
    ?_, ⟨rfl, hlinked, hafter⟩, hlasts, rfl, rfl, List.prefix_append _ _⟩
  simp [Server.loadModules, hlinked, hloaded, extend]

theorem HasAttempted.loadModule (h : s.HasAttempted settings paths) (gateOpen : Bool)
    (path : Path) :
    (s.loadModule gateOpen path).2.HasAttempted settings (paths ++ [path]) ∧
      s.site.Lasts (s.loadModule gateOpen path).2.site ∧
      s.records <+: (s.loadModule gateOpen path).2.records := by
  obtain ⟨rfl, hlinked, hattempted⟩ := h
  obtain ⟨r, l, site, hwithin, hafter, hlasts⟩ := hattempted.loadWithin gateOpen path
    s.settings.modules.loadTimeout
  simp only [Server.loadModule, hwithin]
  exact ⟨⟨rfl, hlinked, hafter⟩, hlasts, List.prefix_append _ _⟩

/-- **A call brings a server on by what it attempts**, and the server lasts. -/
theorem HasAttempted.perform (h : s.HasAttempted settings paths) {call : ServerCall}
    (hcall : call.Abstains) :
    (s.perform call).HasAttempted settings (paths ++ call.attempts settings.modules) ∧
      s.Lasts (s.perform call) ∧
      (call.IsLoad → s.site.container.Stocked true →
        (s.perform call).site.container = s.site.container) := by
  have hstocked : ∀ {site : Site Implementation}, s.site.Lasts site →
      s.site.container.Stocked true → site.container.Stocked true :=
    fun hlasts hfull => (hlasts.container hfull).symm ▸ hfull
  cases call with
  | loadModule gateOpen path =>
    obtain ⟨hafter, hlasts, hrecords⟩ := h.loadModule gateOpen path
    exact ⟨hafter, ⟨rfl, rfl, hrecords, hlasts.contexts, hstocked hlasts⟩,
      fun _ => hlasts.container⟩
  | loadModules gateOpen =>
    obtain ⟨loaded, s', hloaded, hafter, hlasts, hconnectors, hdispatcher, hrecords⟩ :=
      h.loadModules gateOpen
    have hperform : s.perform (.loadModules gateOpen) = s' := by
      simp [Server.perform, hloaded, Except.toOption]
    rw [hperform]
    exact ⟨hafter, ⟨hconnectors, hdispatcher, hrecords, hlasts.contexts, hstocked hlasts⟩,
      fun _ => hlasts.container⟩
  | use call =>
    refine ⟨⟨h.settings_eq, h.linked, ?_⟩, ⟨rfl, rfl, List.prefix_rfl, fun _ _ hc => hc,
      fun hfull => hfull.perform hcall⟩, fun hload => hload.elim⟩
    rw [ServerCall.attempts, List.append_nil]
    exact h.attempts.beside rfl rfl (h.attempts.stocked.perform hcall)
  | rearrange files =>
    refine ⟨⟨h.settings_eq, h.linked, ?_⟩, ⟨rfl, rfl, List.prefix_rfl, fun _ _ hc => hc, id⟩,
      fun _ _ => rfl⟩
    rw [ServerCall.attempts, List.append_nil]
    exact h.attempts.beside rfl rfl h.attempts.stocked

/-- **And so do any number of calls.** -/
theorem HasAttempted.live (calls : List ServerCall) (hcalls : ∀ call ∈ calls, call.Abstains) :
    ∀ {s : Server} {paths : List Path}, s.HasAttempted settings paths →
      (s.live calls).HasAttempted settings
          (paths ++ calls.flatMap (ServerCall.attempts settings.modules)) ∧
        s.Lasts (s.live calls) := by
  induction calls with
  | nil =>
    intro s paths h
    rw [List.flatMap_nil, List.append_nil]
    exact ⟨h, .refl s⟩
  | cons call rest ih =>
    intro s paths h
    obtain ⟨hone, hlasts, -⟩ := h.perform (hcalls call List.mem_cons_self)
    obtain ⟨hall, hlasts'⟩ := ih (fun later hlater => hcalls later (List.mem_cons_of_mem _ hlater))
      hone
    rw [List.flatMap_cons, ← List.append_assoc]
    exact ⟨hall, hlasts.trans hlasts'⟩

/-! ## The start -/

theorem hasAttempted_idle (hlinked : settings.modules.loader = .linked)
    (files : FileTree (Library Implementation)) (linker : Linker Implementation) :
    (idle settings files linker).HasAttempted settings [] where
  settings_eq := rfl
  linked := hlinked
  attempts :=
    { source := by simp [idle, Loader.new, ModuleSettings.source, hlinked]
      late := rfl
      host := rfl
      stocked := .empty
      length := rfl
      fares := fun i r path hr => by simp [idle] at hr
      loaded := rfl }

theorem HasAttempted.autoLoad (h : s.HasAttempted settings []) (gateOpen : Bool) :
    ∃ s', s.autoLoad gateOpen = .ok s' ∧
      s'.HasAttempted settings settings.modules.startAttempts := by
  obtain ⟨loaded, s', hloaded, hafter, -⟩ := h.loadModules gateOpen
  have hsettings := h.settings_eq
  unfold Server.autoLoad ModuleSettings.startAttempts
  rw [hsettings]
  cases settings.modules.autoLoad with
  | true => exact ⟨s', by simp [hloaded, Except.map], by simpa using hafter⟩
  | false => exact ⟨s, rfl, h⟩

/-- A connector that is brought up, or not, asks the container for one resolution at most. -/
theorem HasAttempted.startConnector (h : s.HasAttempted settings paths) (service : String) :
    (s.startConnector service).2.HasAttempted settings paths := by
  unfold Server.startConnector
  cases connectorFor? service with
  | none => exact h
  | some kind =>
    have hstocked : (kind.bringUp service s.settings.connectors s.site.container
        s.dispatcher).2.Stocked (paths.any (·.isLinked)) := by
      cases hjudge : s.settings.connectors.judge service with
      | error e =>
        rw [ConnectorKind.bringUp_of_error hjudge]
        exact h.attempts.stocked
      | ok judged =>
        have hresolve : ¬ (ContainerCall.resolve kind.contract judged.1 :
            ContainerCall Implementation).Registers := id
        rw [Container.snd_bringUp hjudge]
        exact h.attempts.stocked.perform hresolve
    dsimp only
    split <;> rename_i hbringUp <;> rw [hbringUp] at hstocked <;>
      exact ⟨h.settings_eq, h.linked, h.attempts.beside rfl rfl hstocked⟩

theorem HasAttempted.startConnectors (services : List String) :
    ∀ {s : Server}, s.HasAttempted settings paths →
    Server.startConnectors services s = .ok s' → s'.HasAttempted settings paths := by
  induction services with
  | nil =>
    intro s h hs'
    cases hs'
    exact h
  | cons service rest ih =>
    intro s h hs'
    have hone := h.startConnector service
    unfold Server.startConnectors at hs'
    rcases hfirst : s.startConnector service with ⟨e | ⟨⟩, t⟩ <;> rw [hfirst] at hone hs'
    · dsimp only at hs'
      split at hs'
      · cases hs'
      · exact ih hone hs'
    · exact ih hone hs'

/-- **A server that has started stands where its first loads have brought it.** -/
theorem hasAttempted_start {server : Server} {gateOpen : Bool}
    {files : FileTree (Library Implementation)} {linker : Linker Implementation}
    (hstart : (start gateOpen files linker settings).1 = .ok server)
    (hlinked : settings.modules.loader = .linked) :
    server.HasAttempted settings settings.modules.startAttempts := by
  obtain ⟨s, hload, hattempted⟩ := (hasAttempted_idle hlinked files linker).autoLoad gateOpen
  cases hvalid : settings.validate with
  | error objection => simp [start, hvalid] at hstart
  | ok =>
    rw [start_of_valid hvalid, hload] at hstart
    exact hattempted.startConnectors settings.server.services hstart

/-! ## The whole life -/

/-- **What a server has come to** that was started with linked modules, after it has attempted some
paths. -/
structure Lives (started : Server) (paths : List Path) (s : Server) : Prop where
  /-- There is one record for each attempt, in order, as the attempts before it say. -/
  length : s.records.length = paths.length
  fares : ∀ (i : Nat) (r : ModuleRecord Implementation) (path : Path),
    s.records[i]? = some r → paths[i]? = some path → r.Fares s.site (paths.take i) path
  /-- No more than one module has ever been loaded. -/
  loaded : s.loaded.length ≤ 1
  /-- The container is empty, or it holds the two services and nothing else. -/
  container : s.site.container = .empty ∨ s.site.container.registered =
    [.new assetServiceContract memoryServiceName .singleton (.make (.assets .memory)),
      .new assetServiceContract nullServiceName .singleton (.make (.assets .null))]
  /-- Then no load does anything to it. -/
  sated : s.site.container ≠ .empty → ∀ call : ServerCall, call.IsLoad →
    (s.perform call).site.container = s.site.container
  connectors : s.connectors = started.connectors
  dispatcher : s.dispatcher = started.dispatcher
  /-- A shutdown closes the context of every record. -/
  shutdown : s.shutdown.records = s.records ∧ ∀ r ∈ s.records, ∃ c, r.context = some c.id ∧
    s.shutdown.site.context? c.id = some c ∧ c.Closed

theorem HasAttempted.shutdown (h : s.HasAttempted settings paths) :
    s.shutdown.records = s.records ∧ ∀ r ∈ s.records, ∃ c, r.context = some c.id ∧
      s.shutdown.site.context? c.id = some c ∧ c.Closed := by
  have hrecords : s.records ++ s.loader.late = s.records := by
    rw [h.attempts.late, List.append_nil]
  refine ⟨hrecords, fun r hr => ?_⟩
  obtain ⟨i, hi⟩ := List.mem_iff_getElem?.1 hr
  obtain ⟨path, hpath⟩ : ∃ path, paths[i]? = some path := by
    have hlt : i < paths.length := h.attempts.length ▸ (List.getElem?_eq_some_iff.1 hi).1
    exact ⟨_, List.getElem?_eq_getElem hlt⟩
  obtain ⟨c, hid, hc, -⟩ := (h.attempts.fares i r path hi hpath).context
  have hmem : c.id ∈ (s.records ++ s.loader.late).filterMap (·.context) := by
    rw [hrecords]
    exact List.mem_filterMap.2 ⟨r, hr, hid⟩
  obtain ⟨c', hc', hclosed⟩ := Site.closed_unloadAll (fun _ => false) _ hc (.inr hmem)
  have hsame : c'.id = c.id := Site.id_of_context? hc'
  exact ⟨c', hsame ▸ hid, hsame ▸ hc', hclosed⟩

theorem HasAttempted.lives {started : Server} (h : s.HasAttempted settings paths)
    (hlasts : started.Lasts s) :
    Lives started paths s where
  length := h.attempts.length
  fares := h.attempts.fares
  loaded := by
    have hloaded := h.attempts.loaded
    rw [List.countP_eq_length_filter] at hloaded
    rw [Server.loaded, hloaded]
    cases paths.any (·.isLinked) <;> simp
  container := by
    have hstocked := h.attempts.stocked
    cases hany : paths.any (·.isLinked) <;> rw [hany] at hstocked
    · exact .inl hstocked.eq_empty
    · exact .inr hstocked.registered_eq
  sated hfull call hload := by
    have hstocked := h.attempts.stocked
    have habstains : call.Abstains := by
      cases call with
      | use => exact hload.elim
      | loadModule | loadModules | rearrange => trivial
    cases hany : paths.any (·.isLinked) <;> rw [hany] at hstocked
    · exact absurd hstocked.eq_empty hfull
    · exact (h.perform habstains).2.2 hload hstocked
  connectors := hlasts.connectors
  dispatcher := hlasts.dispatcher
  shutdown := h.shutdown

/-- **Loading is harmless, however often.** A server that has started with linked modules may be
told to load any paths and all its modules again, whatever the files are, while others use the
container without registering in it. Each attempt leaves one record, and no record changes later;
one module is loaded at most, and every later attempt at it runs into its own names; the container
goes from empty to the two services once, and keeps those; connectors and routes are those of the
start; and a shutdown closes the context of every record. -/
theorem lives_of_started {server : Server} {gateOpen : Bool}
    {files : FileTree (Library Implementation)} {linker : Linker Implementation}
    (hstart : (start gateOpen files linker settings).1 = .ok server)
    (hlinked : settings.modules.loader = .linked) (earlier later : List ServerCall)
    (hcalls : ∀ call ∈ earlier ++ later, call.Abstains) :
    let s := server.live earlier
    let s' := server.live (earlier ++ later)
    Lives server (settings.modules.startAttempts ++
      (earlier ++ later).flatMap (ServerCall.attempts settings.modules)) s' ∧
    s.records <+: s'.records ∧
    (∀ id c, s.site.context? id = some c → s'.site.context? id = some c) ∧
    (s.site.container ≠ .empty →
      s'.site.container.registered = s.site.container.registered) := by
  intro s s'
  have hattempted := hasAttempted_start hstart hlinked
  obtain ⟨hs, -⟩ := hattempted.live earlier fun call hcall =>
    hcalls call (List.mem_append_left _ hcall)
  obtain ⟨hs', hall⟩ := hattempted.live (earlier ++ later) hcalls
  have hlater : s.Lasts s' := by
    have hsplit : s' = s.live later := List.foldl_append
    rw [hsplit]
    exact (hs.live later fun call hcall => hcalls call (List.mem_append_right _ hcall)).2
  refine ⟨hs'.lives hall, hlater.records, hlater.contexts, fun hfull => ?_⟩
  have hstocked := hs.attempts.stocked
  generalize List.any _ _ = stocked at hstocked
  cases stocked with
  | false => exact absurd hstocked.eq_empty hfull
  | true => rw [hstocked.registered_eq, (hlater.stocked hstocked).registered_eq]

/-- Nothing is loaded at the start, and nothing brought up. -/
def onDemand : Settings :=
  { Settings.default with
    server := { Settings.default.server with services := [] }
    modules := { Settings.default.modules with autoLoad := false } }

/-- The module is loaded once, and then again under another spelling. -/
def onDemandCalls : List ServerCall :=
  [.loadModule true ⟨"libmodule_asset_memory.so"⟩, .rearrange .empty,
    .loadModule true ⟨"plugins/module_asset_memory.dll"⟩]

theorem lives_of_started_onDemand :
    ∃ server, (start true .empty .empty onDemand).1 = .ok server ∧
      onDemand.modules.loader = .linked ∧ (∀ call ∈ onDemandCalls, call.Abstains) ∧
      ∃ r r', (server.live onDemandCalls).records = [r, r'] ∧ r.isLoaded = true ∧
        r'.outcome =
          .error (.registration (.duplicateName "AssetService" "MemoryAssetService")) := by
  obtain ⟨server, hserver⟩ : ∃ server, (start true .empty .empty onDemand).1 = .ok server :=
    ⟨_, rfl⟩
  have hcalls : ∀ call ∈ onDemandCalls, call.Abstains := by
    simp [onDemandCalls, ServerCall.Abstains]
  obtain ⟨hlives, -⟩ := lives_of_started hserver rfl [] onDemandCalls hcalls
  obtain ⟨r, r', hrecords⟩ := List.length_eq_two.1 hlives.length
  have hfirst := hlives.fares 0 r ⟨"libmodule_asset_memory.so"⟩ (by rw [hrecords]; rfl) rfl
  have hagain := hlives.fares 1 r' ⟨"plugins/module_asset_memory.dll"⟩ (by rw [hrecords]; rfl) rfl
  exact ⟨server, hserver, rfl, hcalls, r, r', hrecords, hfirst.first (by decide) (by decide),
    hagain.again (by decide) (by decide)⟩

end Server
end ModularHost
