import ModularHost.Proofs.Connector.Access
import ModularHost.Proofs.Server.Linked
/-!
# Bringing the connectors of a server up

Each entry of the list of services is attempted in its turn, and whether the first failure ends the
start is up to the settings (`Server.startConnectors_eq`). All entries that settings may have name
the same service, and the service has one route: so the first entry may come up, and every later one
finds the route taken or fails as the first did (`Server.fronts`).
-/


namespace ModularHost

/-- The service that the host has a connector for. -/
def assetService : String := "AssetService"

/-- The services that settings may name are those with a connector. -/
theorem mem_knownServices_iff {service : String} :
    service ∈ Settings.knownServices ↔ connectorFor? service = some assetConnector := by
  unfold connectorFor?
  split <;> simp_all [Settings.knownServices]

/-! ## What can be said before the attempt -/

namespace Settings

variable {s : Settings} {c : Container Implementation}

/-- The section of the asset connector says all that it has to, and names what the container has. -/
def Ready (s : Settings) (c : Container Implementation) : Prop :=
  ∃ sec v auth, s.connectors.get? assetService = some sec ∧ sec.implementation = some v ∧
    Text.isBlank v = false ∧ sec.Requires auth ∧ Text.trim v ∈ c.labels.map (·.2)

theorem judge_eq_ok_iff {name : String} {auth : AuthMode} :
    s.connectors.judge assetService = .ok (name, auth) ↔
      ∃ sec v, s.connectors.get? assetService = some sec ∧ sec.implementation = some v ∧
        Text.isBlank v = false ∧ sec.Requires auth ∧ Text.trim v = name := by
  constructor
  · intro h
    obtain ⟨sec, hsec, hname, hauth⟩ := ConnectorSections.of_judge_eq_ok h
    obtain ⟨v, hv, hblank, htrim⟩ := ConnectorSection.required_eq_ok_iff.1 hname
    exact ⟨sec, v, hsec, hv, hblank, ConnectorSection.authMode_eq_ok_iff.1 hauth, htrim⟩
  · rintro ⟨sec, v, hsec, hv, hblank, hauth, rfl⟩
    exact ConnectorSections.judge_eq_ok hsec hv hblank (ConnectorSection.authMode_eq_ok_iff.2 hauth)

/-- A container of asset services is asked for the name that the section gives. -/
theorem ready_iff (hc : ∀ label ∈ c.labels, label.1 = assetServiceContract) :
    s.Ready c ↔ ∃ name auth b, s.connectors.judge assetService = .ok (name, auth) ∧
      c.find? assetServiceContract name = some b := by
  have hnamed : ∀ name, name ∈ c.labels.map (·.2) ↔
      ∃ b, c.find? assetServiceContract name = some b := by
    intro name
    constructor
    · intro hmem
      obtain ⟨label, hlabel, rfl⟩ := List.mem_map.1 hmem
      obtain ⟨b, hb, rfl⟩ := List.mem_map.1 hlabel
      have hcontract : b.contract = assetServiceContract := hc _ hlabel
      exact ⟨b, Container.find?_of_mem hb (hcontract ▸ Contract.same_iff.2 rfl)⟩
    · rintro ⟨b, hb⟩
      obtain ⟨-, rfl⟩ := Container.same_of_find?_eq_some hb
      exact List.mem_map.2 ⟨_, List.mem_map_of_mem (Container.mem_of_get? hb), rfl⟩
  constructor
  · rintro ⟨sec, v, auth, hsec, hv, hblank, hauth, hname⟩
    obtain ⟨b, hb⟩ := (hnamed _).1 hname
    exact ⟨_, auth, b, judge_eq_ok_iff.2 ⟨sec, v, hsec, hv, hblank, hauth, rfl⟩, hb⟩
  · rintro ⟨name, auth, b, hjudge, hb⟩
    obtain ⟨sec, v, hsec, hv, hblank, hauth, rfl⟩ := judge_eq_ok_iff.1 hjudge
    exact ⟨sec, v, auth, hsec, hv, hblank, hauth, (hnamed _).2 ⟨b, hb⟩⟩

end Settings

namespace Server

variable {s t : Server} {services : List String} {service : String} {e : ServerError}

/-! ## One attempt -/

theorem startConnector_of_up (h : service ∈ Settings.knownServices) {i : Instance Implementation}
    {d : Dispatcher Handler} {c : Container Implementation}
    (hup : assetConnector.bringUp service s.settings.connectors s.site.container s.dispatcher =
      (.ok (i, d), c)) :
    s.startConnector service = (.ok (), { s with
      site := { s.site with container := c }
      dispatcher := d
      connectors := s.connectors ++ [service] }) := by
  simp only [startConnector, mem_knownServices_iff.1 h, hup]

theorem startConnector_of_down (h : service ∈ Settings.knownServices) {cause : ConnectorError}
    {c : Container Implementation}
    (hdown : assetConnector.bringUp service s.settings.connectors s.site.container s.dispatcher =
      (.error cause, c)) :
    s.startConnector service =
      (.error (.connector service cause), { s with site := { s.site with container := c } }) := by
  simp only [startConnector, mem_knownServices_iff.1 h, hdown]

theorem settings_startConnector (s : Server) (service : String) :
    (s.startConnector service).2.settings = s.settings := by
  unfold startConnector
  split
  · rfl
  · split <;> rfl

/-- A known service that does not come up has an error of its connector. -/
theorem startConnector_error (h : service ∈ Settings.knownServices)
    (he : (s.startConnector service).1 = .error e) : ∃ cause, e = .connector service cause := by
  rcases hbringUp : assetConnector.bringUp service s.settings.connectors s.site.container
    s.dispatcher with ⟨cause | ⟨i, d⟩, c⟩
  · rw [startConnector_of_down h hbringUp] at he
    cases he
    exact ⟨cause, rfl⟩
  · rw [startConnector_of_up h hbringUp] at he
    cases he

/-- The container holds asset services, and each can be had. -/
structure Serving (s : Server) : Prop where
  outright : s.site.container.Outright
  assets : ∀ label ∈ s.site.container.labels, label.1 = assetServiceContract

/-- What an attempt to bring the asset connector up leaves of a server. -/
structure Attempted (s t : Server) (outcome : Except ServerError Unit) : Prop where
  settings : t.settings = s.settings
  serving : t.Serving
  labels : t.site.container.labels = s.site.container.labels
  /-- It comes up where everything is ready and the route is free; otherwise nothing is attached. -/
  outcome : (outcome = .ok () ∧ s.settings.Ready s.site.container ∧
      s.dispatcher.route? assetConnector.route = none ∧
      t.connectors = s.connectors ++ [assetService] ∧
      ∃ route, t.dispatcher.entries = s.dispatcher.entries ++ [(assetConnector.route, route)]) ∨
    ((∃ cause, outcome = .error (.connector assetService cause)) ∧
      ¬ (s.settings.Ready s.site.container ∧ s.dispatcher.route? assetConnector.route = none) ∧
      t.connectors = s.connectors ∧ t.dispatcher = s.dispatcher)

/-- **One attempt**: the section is judged, the name is resolved, the route is taken. -/
theorem attempted_startConnector (h : s.Serving) :
    s.Attempted (s.startConnector assetService).2 (s.startConnector assetService).1 := by
  have hready := Settings.ready_iff (s := s.settings) h.assets
  have hknown : assetService ∈ Settings.knownServices := List.mem_singleton.2 rfl
  -- an attempt that fails and leaves the container as it is
  have hfailed : ∀ cause, ¬ s.settings.Ready s.site.container →
      assetConnector.bringUp assetService s.settings.connectors s.site.container s.dispatcher =
        (.error cause, s.site.container) →
      s.Attempted (s.startConnector assetService).2 (s.startConnector assetService).1 := by
    intro cause hnot hbringUp
    rw [startConnector_of_down hknown hbringUp]
    exact ⟨rfl, h, rfl, .inr ⟨⟨cause, rfl⟩, fun hboth => hnot hboth.1, rfl, rfl⟩⟩
  rcases hjudge : s.settings.connectors.judge assetService with cause | ⟨name, auth⟩
  · refine hfailed cause (fun hyes => ?_) (ConnectorKind.bringUp_of_error hjudge)
    obtain ⟨_, _, _, hok, -⟩ := hready.1 hyes
    rw [hjudge] at hok
    cases hok
  · cases hfind : s.site.container.find? assetServiceContract name with
    | none =>
      refine hfailed _ (fun hyes => ?_) (ConnectorKind.bringUp_of_refused hjudge
        (Container.resolve_of_find?_eq_none hfind))
      obtain ⟨_, _, b, hok, hb⟩ := hready.1 hyes
      rw [hjudge] at hok
      cases hok
      rw [hfind] at hb
      cases hb
    | some b =>
      obtain ⟨i, c', hresolve, houtright, hlabels⟩ := h.outright.resolve hfind
      have hserving : ∀ t : Server, t.site.container = c' → t.Serving := fun t ht =>
        ⟨ht ▸ houtright, by rw [ht, hlabels]; exact h.assets⟩
      have hresolved : s.site.container.resolve assetConnector.contract name = (.ok i, c') :=
        hresolve
      have hbringUp := ConnectorKind.bringUp_of_resolved (d := s.dispatcher) hjudge hresolved
      cases hroute : s.dispatcher.route? assetConnector.route with
      | none =>
        have hattach : s.dispatcher.attach assetConnector.route (.served i) auth =
            .ok ⟨s.dispatcher.entries ++ [(assetConnector.route, ⟨.served i, auth⟩)]⟩ := by
          simp [Dispatcher.attach, hroute]
        rw [hattach] at hbringUp
        rw [startConnector_of_up hknown hbringUp]
        exact ⟨rfl, hserving _ rfl, hlabels, .inl ⟨rfl, hready.2 ⟨name, auth, b, hjudge, hfind⟩,
          hroute, rfl, _, rfl⟩⟩
      | some taken =>
        have hattach : s.dispatcher.attach assetConnector.route (.served i) auth =
            .error (.routeInUse assetConnector.route) := by
          simp [Dispatcher.attach, hroute]
        rw [hattach] at hbringUp
        rw [startConnector_of_down hknown hbringUp]
        exact ⟨rfl, hserving _ rfl, hlabels, .inr ⟨⟨_, rfl⟩, fun hboth => by simp [hroute] at hboth,
          rfl, rfl⟩⟩

/-! ## All entries -/

/-- What becomes of each entry, attempted in its turn whatever became of those before. -/
def outcomes : List String → Server → List (Except ServerError Unit)
  | [], _ => []
  | service :: rest, s => (s.startConnector service).1 :: outcomes rest (s.startConnector service).2

/-- The server after every entry has been attempted. -/
def attemptAll : List String → Server → Server
  | [], s => s
  | service :: rest, s => attemptAll rest (s.startConnector service).2

/-- The error of the first entry that did not come up. -/
def firstFailure (outcomes : List (Except ServerError Unit)) : Option ServerError :=
  outcomes.findSome? fun
    | .ok () => none
    | .error e => some e

/-- **The first failure ends the start where the settings say so**; otherwise all are attempted. -/
theorem startConnectors_eq (services : List String) : ∀ s : Server,
    startConnectors services s =
      match if s.settings.server.failFast then firstFailure (outcomes services s) else none with
      | some e => .error e
      | none => .ok (attemptAll services s) := by
  induction services with
  | nil =>
    intro s
    simp [startConnectors, outcomes, attemptAll, firstFailure]
  | cons service rest ih =>
    intro s
    have hsettings := settings_startConnector s service
    rcases hfirst : s.startConnector service with ⟨e | ⟨⟩, t⟩ <;> rw [hfirst] at hsettings <;>
      replace hsettings : t.settings = s.settings := hsettings
    · simp only [startConnectors, outcomes, attemptAll, firstFailure, hfirst, ih, hsettings]
      by_cases hfast : s.settings.server.failFast = true <;> simp [hfast]
    · simp only [startConnectors, outcomes, attemptAll, firstFailure, hfirst, ih, hsettings]
      simp

/-- The errors of known services are those of their connectors. -/
theorem error_of_mem_outcomes (services : List String) :
    ∀ s : Server, (∀ service ∈ services, service ∈ Settings.knownServices) →
      .error e ∈ outcomes services s →
      ∃ service ∈ services, ∃ cause, e = .connector service cause := by
  induction services with
  | nil => intro s _ hmem; cases hmem
  | cons service rest ih =>
    intro s hknown hmem
    rcases List.mem_cons.1 hmem with hfirst | hrest
    · obtain ⟨cause, rfl⟩ := startConnector_error (hknown service List.mem_cons_self) hfirst.symm
      exact ⟨service, List.mem_cons_self, cause, rfl⟩
    · obtain ⟨other, hother, cause, rfl⟩ :=
        ih _ (fun x hx => hknown x (List.mem_cons_of_mem _ hx)) hrest
      exact ⟨other, List.mem_cons_of_mem _ hother, cause, rfl⟩

theorem mem_of_firstFailure {outcomes : List (Except ServerError Unit)}
    (h : firstFailure outcomes = some e) : .error e ∈ outcomes := by
  obtain ⟨o, ho, heq⟩ := List.exists_of_findSome?_eq_some h
  cases o with
  | ok => cases heq
  | error e' =>
    obtain rfl : e' = e := Option.some.inj heq
    exact ho

theorem firstFailure_eq_none_iff (outcomes : List (Except ServerError Unit)) :
    firstFailure outcomes = none ↔ ∀ o ∈ outcomes, o = .ok () := by
  rw [firstFailure, List.findSome?_eq_none_iff]
  refine forall₂_congr fun o _ => ?_
  cases o <;> simp

/-! ## Entries of one service -/

/-- Nothing more can come up: the route is taken, or the connector is not ready. -/
def Settled (s : Server) : Prop :=
  ¬ (s.settings.Ready s.site.container ∧ s.dispatcher.route? assetConnector.route = none)

/-- Where nothing can come up, nothing does, and all stays as it is. -/
theorem settled_attemptAll (services : List String) (hservices : ∀ x ∈ services, x = assetService) :
    ∀ s : Server, s.Serving → s.Settled →
      (∀ o ∈ outcomes services s, o ≠ .ok ()) ∧
      (attemptAll services s).site.container.labels = s.site.container.labels ∧
      (attemptAll services s).connectors = s.connectors ∧
      (attemptAll services s).dispatcher = s.dispatcher := by
  induction services with
  | nil =>
    intro s _ _
    exact ⟨by simp [outcomes], rfl, rfl, rfl⟩
  | cons service rest ih =>
    intro s hserving hsettled
    rw [hservices service List.mem_cons_self]
    have h := attempted_startConnector hserving
    rcases h.outcome with
      ⟨-, hready, hroute, -⟩ | ⟨⟨cause, hfailed⟩, hnot, hconnectors, hdispatcher⟩
    · exact absurd ⟨hready, hroute⟩ hsettled
    -- what is ready depends on the labels of the container, and no attempt changes those
    · have hsettled' : (s.startConnector assetService).2.Settled := by
        rw [Settled, h.settings, hdispatcher, Settings.Ready, h.labels]
        exact hnot
      obtain ⟨hall, hlabels, hconnectors', hdispatcher'⟩ :=
        ih (fun x hx => hservices x (List.mem_cons_of_mem _ hx)) _ h.serving hsettled'
      refine ⟨fun o ho => ?_, hlabels.trans h.labels, hconnectors'.trans hconnectors,
        hdispatcher'.trans hdispatcher⟩
      rcases List.mem_cons.1 ho with rfl | hrest
      · rw [hfailed]
        simp
      · exact hall o hrest

/-- What becomes of the entries on a server without routes. -/
structure Fronts (services : List String) (s : Server) : Prop where
  /-- The first entry comes up if everything is ready, and no other does. -/
  comesUp : ∀ i, (outcomes services s)[i]? = some (.ok ()) ↔
    i = 0 ∧ i < services.length ∧ s.settings.Ready s.site.container
  labels : (attemptAll services s).site.container.labels = s.site.container.labels
  up : .ok () ∈ outcomes services s → (attemptAll services s).connectors = [assetService] ∧
    (attemptAll services s).dispatcher.routes = [assetConnector.route]
  down : .ok () ∉ outcomes services s → (attemptAll services s).connectors = [] ∧
    (attemptAll services s).dispatcher.routes = []

/-- **The first entry may come up, and no other.** -/
theorem fronts (hservices : ∀ x ∈ services, x = assetService) (hserving : s.Serving)
    (hconnectors : s.connectors = []) (hdispatcher : s.dispatcher = .empty) :
    Fronts services s := by
  have hroutes : (Dispatcher.empty : Dispatcher Handler).routes = [] := by
    simp [Dispatcher.routes, Dispatcher.empty]
  by_cases hsettled : s.Settled
  · obtain ⟨hall, hlabels, hconnectors', hdispatcher'⟩ :=
      settled_attemptAll services hservices s hserving hsettled
    have hroute : s.dispatcher.route? assetConnector.route = none := by rw [hdispatcher]; rfl
    refine ⟨fun i => ?_, hlabels, fun hup => absurd rfl (hall _ hup), fun _ => ?_⟩
    · constructor
      · intro hi
        exact absurd rfl (hall _ (List.mem_of_getElem? hi))
      · rintro ⟨-, -, hready⟩
        exact absurd ⟨hready, hroute⟩ hsettled
    · rw [hconnectors', hdispatcher', hdispatcher]
      exact ⟨hconnectors, hroutes⟩
  · obtain ⟨hready, hroute⟩ := not_not.1 hsettled
    cases services with
    | nil =>
      refine ⟨by simp [outcomes], rfl, by simp [outcomes], fun _ => ⟨hconnectors, ?_⟩⟩
      rw [attemptAll, hdispatcher, hroutes]
    | cons service rest =>
      rw [hservices service List.mem_cons_self]
      have h := attempted_startConnector hserving
      rcases h.outcome with ⟨hok, -, -, hup, route, hentries⟩ | ⟨-, hnot, -⟩
      · -- the route is taken now, so the rest of the entries find nothing to do
        have hsettled' : (s.startConnector assetService).2.Settled := by
          rintro ⟨-, hfree⟩
          rw [Dispatcher.route?, hentries] at hfree
          simp [hdispatcher, Dispatcher.empty] at hfree
        obtain ⟨hall, hlabels, hconnectors', hdispatcher'⟩ :=
          settled_attemptAll rest (fun x hx => hservices x (List.mem_cons_of_mem _ hx)) _ h.serving
            hsettled'
        have hfirst : .ok () ∈ outcomes (assetService :: rest) s := by
          rw [outcomes, hok]
          exact List.mem_cons_self
        refine ⟨fun i => ?_, hlabels.trans h.labels, fun _ => ⟨?_, ?_⟩,
          fun hdown => absurd hfirst hdown⟩
        · cases i with
          | zero => simp [outcomes, hok, hready]
          | succ i =>
            simp only [outcomes, List.getElem?_cons_succ, Nat.succ_ne_zero, false_and, iff_false]
            exact fun hi => hall _ (List.mem_of_getElem? hi) rfl
        · rw [attemptAll, hconnectors', hup, hconnectors, List.nil_append]
        · rw [attemptAll, hdispatcher', Dispatcher.routes, hentries, hdispatcher]
          simp [Dispatcher.empty]
      · exact absurd ⟨hready, hroute⟩ hnot

end Server
end ModularHost
