import ModularHost.Proofs.Server.Connectors
/-!
# How a server starts

Settings are judged, modules are loaded, and then the connectors are brought up. Every error of a
start belongs to one of these (`Server.start_error`). With linked modules, what each of them comes
to is decided by the settings alone (`Server.start_accounts`), and a start that had no failure comes
to the same server whatever a failure would have meant (`Server.start_lenient`).
-/


namespace ModularHost

namespace Settings

/-- The same settings, but for what a failure means. -/
def lenient (s : Settings) : Settings :=
  { s with server := { s.server with failFast := false } }

variable {s : Settings}

theorem knows_of_validate (h : s.validate = .ok ()) :
    ∀ service ∈ s.server.services, service ∈ knownServices := by
  intro service hservice
  unfold validate at h
  split at h
  · cases h
  · rename_i hnone
    simpa using List.find?_eq_none.1 hnone service hservice

end Settings

namespace Server

variable {s : Server} {settings : Settings} {gateOpen : Bool}
  {files : FileTree (Library Implementation)} {linker : Linker Implementation}

/-- A server whose settings have been made lenient. -/
def lenient (s : Server) : Server := { s with settings := s.settings.lenient }

theorem lenient_startConnector (s : Server) (service : String) :
    s.lenient.startConnector service =
      ((s.startConnector service).1, (s.startConnector service).2.lenient) := by
  unfold startConnector
  split
  · rfl
  · simp only [lenient, Settings.lenient]
    split <;> rfl

theorem lenient_attemptAll (services : List String) :
    ∀ s : Server, attemptAll services s.lenient = (attemptAll services s).lenient := by
  induction services with
  | nil => intro s; rfl
  | cons service rest ih =>
    intro s
    simp only [attemptAll, lenient_startConnector, ih]

theorem lenient_autoLoad (s : Server) (gateOpen : Bool) :
    s.lenient.autoLoad gateOpen = (s.autoLoad gateOpen).map lenient := by
  have hloaded : s.lenient.loadModules gateOpen =
      (s.loadModules gateOpen).map fun loaded => (loaded.1, loaded.2.lenient) := by
    unfold loadModules
    simp only [lenient, Settings.lenient]
    cases s.settings.modules.loader with
    | linked => rfl
    | library =>
      simp only
      split <;> rfl
  have hauto : s.lenient.settings.modules.autoLoad = s.settings.modules.autoLoad := rfl
  rw [autoLoad, autoLoad, hauto, hloaded]
  split
  · cases s.loadModules gateOpen <;> rfl
  · rfl

/-- What keeps modules from being loaded at all is a directory that is none. -/
theorem autoLoad_error {e : ServerError} (h : s.autoLoad gateOpen = .error e) :
    ∃ cause, e = .discovery cause := by
  unfold autoLoad loadModules at h
  split at h
  · cases hloader : s.settings.modules.loader with
    | linked =>
      simp only [hloader] at h
      cases h
    | library =>
      simp only [hloader] at h
      split at h
      · cases h
      · cases h
        exact ⟨_, rfl⟩
  · cases h

theorem start_of_valid (h : settings.validate = .ok ()) :
    (start gateOpen files linker settings).1 =
      (idle settings files linker).autoLoad gateOpen >>=
        startConnectors settings.server.services := by
  simp only [start, h]
  cases (idle settings files linker).autoLoad gateOpen <;> rfl

/-- **Settings are judged first, and what they name is known from then on**: an error of the start
is an error of its modules' directory or of a connector. -/
theorem start_error (h : settings.validate = .ok ()) {e : ServerError}
    (he : (start gateOpen files linker settings).1 = .error e) :
    (∃ cause, e = .discovery cause) ∨ ∃ service cause, e = .connector service cause := by
  rw [start_of_valid h] at he
  cases hload : (idle settings files linker).autoLoad gateOpen with
  | error e' =>
    rw [hload] at he
    cases he
    exact .inl (autoLoad_error hload)
  | ok s =>
    rw [hload] at he
    replace he : startConnectors settings.server.services s = .error e := he
    rw [startConnectors_eq] at he
    split at he
    · rename_i e' hfirst
      cases he
      split at hfirst
      · obtain ⟨service, -, cause, rfl⟩ := error_of_mem_outcomes settings.server.services s
          (Settings.knows_of_validate h) (mem_of_firstFailure hfirst)
        exact .inr ⟨service, cause, rfl⟩
      · cases hfirst
    · cases he

/-- What the start of a server with linked modules comes to, when its settings are valid and `s` is
the server with its modules loaded. -/
structure Starts (settings : Settings) (s : Server) (result : Except ServerError Server) :
    Prop where
  /-- Both services are there, or none, whatever files there are. -/
  container : s.site.container.labels =
    if settings.modules.LoadsAssets then
      [(assetServiceContract, memoryServiceName), (assetServiceContract, nullServiceName)]
    else []
  /-- The first entry comes up if everything is ready, and no other does. -/
  comesUp : ∀ i, (outcomes settings.server.services s)[i]? = some (.ok ()) ↔
    i = 0 ∧ i < settings.server.services.length ∧ settings.Ready s.site.container
  /-- The start succeeds unless a failure ends it. -/
  succeeds : (∃ server, result = .ok server) ↔
    settings.server.failFast = false ∨ ∀ o ∈ outcomes settings.server.services s, o = .ok ()
  /-- It fails with the error of the first entry that does not come up. -/
  fails : ∀ e, result = .error e → firstFailure (outcomes settings.server.services s) = some e ∧
    ∃ cause, e = .connector assetService cause
  /-- What there is after a success. -/
  server : ∀ server, result = .ok server →
    server.site.container.labels = s.site.container.labels ∧
    (.ok () ∈ outcomes settings.server.services s →
      server.connectors = [assetService] ∧ server.dispatcher.routes = [assetConnector.route]) ∧
    (.ok () ∉ outcomes settings.server.services s →
      server.connectors = [] ∧ server.dispatcher.routes = [])

theorem starts_of_linked (hvalid : settings.validate = .ok ())
    (hlinked : settings.modules.loader = .linked) :
    ∃ s, (idle settings files linker).autoLoad gateOpen = .ok s ∧
      Starts settings s (start gateOpen files linker settings).1 := by
  have hknown := Settings.knows_of_validate hvalid
  have hservices : ∀ x ∈ settings.server.services, x = assetService := fun x hx =>
    List.mem_singleton.1 (hknown x hx)
  obtain ⟨s, hload, hsettings, hdispatcher, hconnectors, hcontainer⟩ :=
    autoLoad_linked gateOpen files linker hlinked
  have hlabels : s.site.container.labels =
      if settings.modules.LoadsAssets then
        [(assetServiceContract, memoryServiceName), (assetServiceContract, nullServiceName)]
      else [] := by
    rw [hcontainer]
    split
    · exact labels_assetContainer
    · exact Container.labels_empty
  -- there is something in the container only if the asset module has been loaded
  have hserving : s.Serving := by
    constructor
    · rw [hcontainer]
      split
      · exact outright_assetContainer
      · exact Container.outright_empty
    · rw [hlabels]
      split <;> simp
  have hfronts := fronts hservices hserving hconnectors hdispatcher
  refine ⟨s, hload, ?_⟩
  rw [start_of_valid hvalid, hload]
  change Starts settings s (startConnectors settings.server.services s)
  rw [startConnectors_eq, hsettings]
  have hall := firstFailure_eq_none_iff (outcomes settings.server.services s)
  refine ⟨hlabels, hsettings ▸ hfronts.comesUp, ?_, fun e he => ?_, fun server hserver => ?_⟩
  · cases hfast : settings.server.failFast with
    | false => simp
    | true =>
      rw [← hall]
      cases firstFailure (outcomes settings.server.services s) <;> simp
  · split at he
    · rename_i e' hfirst
      cases he
      split at hfirst
      · obtain ⟨service, hservice, cause, rfl⟩ :=
          error_of_mem_outcomes settings.server.services s hknown (mem_of_firstFailure hfirst)
        exact ⟨hfirst, cause, by rw [hservices service hservice]⟩
      · cases hfirst
    · cases he
  · split at hserver
    · cases hserver
    · cases hserver
      exact ⟨hfronts.labels, hfronts.up, hfronts.down⟩

/-- A start that succeeds has attempted every entry, so it succeeds where failures mean nothing. -/
theorem start_lenient (hvalid : settings.validate = .ok ()) {server : Server}
    (h : (start gateOpen files linker settings).1 = .ok server) :
    (start gateOpen files linker settings.lenient).1 = .ok server.lenient := by
  have hvalid' : settings.lenient.validate = .ok () := hvalid
  have hidle : idle settings.lenient files linker = (idle settings files linker).lenient := rfl
  have hservices : settings.lenient.server.services = settings.server.services := rfl
  rw [start_of_valid hvalid] at h
  rw [start_of_valid hvalid', hidle, lenient_autoLoad, hservices]
  cases hload : (idle settings files linker).autoLoad gateOpen with
  | error e =>
    rw [hload] at h
    cases h
  | ok s =>
    rw [hload] at h
    replace h : startConnectors settings.server.services s = .ok server := h
    rw [startConnectors_eq] at h
    split at h
    · cases h
    · cases h
      -- the attempts are the same ones, and none of them is asked for its failure
      change startConnectors settings.server.services s.lenient = _
      rw [startConnectors_eq, ← lenient_attemptAll]
      simp [lenient, Settings.lenient]

/-- **How a server starts.** Settings that are not valid are rejected, and nothing else is; a
service that is unknown never gets as far as its connector. With linked modules the container holds
both asset services or none; of the entries only the first can come up, where everything is ready;
the start fails with the first entry that does not come up, if failures end it; and there is one
connector on one route, or none. A start without failure does not depend on what failures mean. -/
theorem start_accounts (gateOpen : Bool) (files : FileTree (Library Implementation))
    (linker : Linker Implementation) (settings : Settings) :
    let result := (start gateOpen files linker settings).1
    (∀ objection, result = .error (.rejected objection) ↔ settings.validate = .error objection) ∧
    (∀ name, result ≠ .error (.unknownService name)) ∧
    (settings.validate = .ok () → settings.modules.loader = .linked →
      ∃ s, (idle settings files linker).autoLoad gateOpen = .ok s ∧ Starts settings s result) ∧
    ∀ server, result = .ok server →
      (start gateOpen files linker settings.lenient).1 = .ok server.lenient := by
  intro result
  cases hvalid : settings.validate with
  | error objection =>
    have hresult : result = .error (.rejected objection) := by
      simp only [result, start, hvalid]
    rw [hresult]
    refine ⟨fun o => ?_, fun name => ?_, fun h => ?_, fun server h => ?_⟩
    · constructor
      · rintro ⟨⟩
        rfl
      · rintro ⟨⟩
        rfl
    · rintro ⟨⟩
    · cases h
    · cases h
  | ok =>
    have herror : ∀ e, result = .error e →
        (∃ cause, e = .discovery cause) ∨ ∃ service cause, e = .connector service cause :=
      fun e he => start_error hvalid he
    refine ⟨fun o => ⟨fun h => ?_, fun h => nomatch h⟩, fun name h => ?_,
      fun _ hlinked => starts_of_linked hvalid hlinked, fun server hserver => ?_⟩
    · rcases herror _ h with ⟨_, hno⟩ | ⟨_, _, hno⟩ <;> cases hno
    · rcases herror _ h with ⟨_, hno⟩ | ⟨_, _, hno⟩ <;> cases hno
    · exact start_lenient hvalid hserver

/-- The default settings, with no files at all: the one entry comes up. -/
theorem start_accounts_default :
    Settings.default.validate = .ok () ∧ Settings.default.modules.loader = .linked ∧
    ∃ server, (start true .empty .empty Settings.default).1 = .ok server ∧
      server.connectors = ["AssetService"] ∧ server.dispatcher.routes = ["assets"] := by
  refine ⟨rfl, rfl, ?_⟩
  obtain ⟨s, -, h⟩ := (start_accounts true .empty .empty Settings.default).2.2.1 rfl rfl
  have hloads : Settings.default.modules.LoadsAssets := ⟨rfl, .inl rfl⟩
  have hready : Settings.default.Ready s.site.container := by
    refine ⟨.ofImplementation "MemoryAssetService", "MemoryAssetService", .none, rfl, rfl,
      by decide, .nothing (by decide), ?_⟩
    rw [h.container, if_pos hloads]
    decide
  have hfirst := (h.comesUp 0).2 ⟨rfl, by decide, hready⟩
  have hall : ∀ o ∈ outcomes Settings.default.server.services s, o = .ok () := by
    intro o ho
    obtain rfl := List.mem_singleton.1 ho
    exact Option.some.inj hfirst
  obtain ⟨server, hserver⟩ := h.succeeds.2 (.inr hall)
  obtain ⟨-, hup, -⟩ := h.server server hserver
  exact ⟨server, hserver, hup (List.mem_of_getElem? hfirst)⟩

end Server
end ModularHost
