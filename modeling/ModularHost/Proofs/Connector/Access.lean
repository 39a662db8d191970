import ModularHost.Proofs.Connector.BringUp
/-!
# Who is let in

A request reaches a handler when it can be read, its route is attached, and the route lets its
credentials in; each of these is asked in that order, and the first that fails is the answer. What a
route asks for is fixed by the first attachment that took the route (`attachAll_route?`), and a
connector's section has to ask for it in so many words (`ConnectorSection.Requires`).

A refusal is decided by the text up to the request's route and by which routes there are. So two
dispatchers with the same routes refuse alike, whatever stands behind the routes
(`Dispatcher.refusal_congr`).
-/


namespace ModularHost

/-! ## Whom a route lets in -/

/-- Everyone, or whoever gives exactly the username and the password. -/
def AuthMode.LetsIn (auth : AuthMode) (credentials : Option Credentials) : Prop :=
  auth = .none ∨ ∃ username password,
    auth = .basic username password ∧ credentials = some ⟨username, password⟩

theorem Route.admits_iff {H : Type} {r : Route H} {credentials : Option Credentials} :
    r.admits credentials = true ↔ r.auth.LetsIn credentials := by
  unfold Route.admits AuthMode.LetsIn
  cases hauth : r.auth with
  | none => simp
  | basic username password =>
    rcases credentials with - | ⟨u, p⟩
    · simp
    · simp only [Option.any_some, Bool.and_eq_true, beq_iff_eq, reduceCtorEq, false_or,
        AuthMode.basic.injEq, Option.some.injEq, Credentials.mk.injEq]
      constructor
      · rintro ⟨rfl, rfl⟩
        exact ⟨u, p, ⟨rfl, rfl⟩, rfl, rfl⟩
      · rintro ⟨_, _, ⟨rfl, rfl⟩, rfl, rfl⟩
        exact ⟨rfl, rfl⟩

/-! ## Requests -/

/-- A handler at work, with a list of the calls that reached it. -/
def Handling.traced {H σ : Type} (handle : Handling H σ) :
    Handling H (σ × List (H × String × Json)) :=
  fun handler s method data =>
    ((handle handler s.1 method data).1,
      (handle handler s.1 method data).2, s.2 ++ [(handler, method, data)])

namespace Dispatcher

variable {H σ : Type} {d : Dispatcher H} {handle : Handling H σ} {s : σ} {text : String}
  {r : ServiceRequest} {route : Route H}

theorem mem_routes {name : String} : name ∈ d.routes ↔ (d.route? name).isSome = true := by
  simp [routes, route?, List.mem_mergeSort]

/-- A request reaches a route. -/
structure Reaches (d : Dispatcher H) (text : String) (r : ServiceRequest) (route : Route H) :
    Prop where
  decoded : ServiceRequest.decoder.decodeText text = .ok r
  attached : d.route? r.route = some route
  letIn : route.auth.LetsIn r.credentials

/-- **Why a request is refused**: what is wrong with it first, in the order in which things are
looked at. -/
inductive Refuses (d : Dispatcher H) (text : String) : DispatchError → Prop
  | unread {fault : Json.Fault} : ServiceRequest.decoder.decodeText text = .error fault →
    Refuses d text (.invalidRequest fault)
  | noRoute {r : ServiceRequest} : ServiceRequest.decoder.decodeText text = .ok r →
    d.route? r.route = none → Refuses d text (.noRoute r.route)
  | keptOut {r : ServiceRequest} {route : Route H} :
    ServiceRequest.decoder.decodeText text = .ok r → d.route? r.route = some route →
    ¬ route.auth.LetsIn r.credentials → Refuses d text (.unauthorized r.route)

theorem reaches_or_refuses (d : Dispatcher H) (text : String) :
    (∃ r route, d.Reaches text r route) ∨ ∃ e, d.Refuses text e := by
  cases hdecode : ServiceRequest.decoder.decodeText text with
  | error fault => exact .inr ⟨_, .unread hdecode⟩
  | ok r =>
    cases hroute : d.route? r.route with
    | none => exact .inr ⟨_, .noRoute hdecode hroute⟩
    | some route =>
      by_cases hin : route.auth.LetsIn r.credentials
      · exact .inl ⟨r, route, hdecode, hroute, hin⟩
      · exact .inr ⟨_, .keptOut hdecode hroute hin⟩

theorem Refuses.not_reaches {e : DispatchError} (h : d.Refuses text e) :
    ¬ d.Reaches text r route := by
  rintro ⟨hdecode, hroute, hin⟩
  cases h with
  | unread hd =>
    rw [hdecode] at hd
    cases hd
  | noRoute hd hr =>
    rw [hdecode] at hd
    cases hd
    rw [hroute] at hr
    cases hr
  | keptOut hd hr hout =>
    rw [hdecode] at hd
    cases hd
    rw [hroute] at hr
    cases hr
    exact hout hin

/-- A request that reaches its route is answered by the handler. -/
theorem dispatch_of_reaches (h : d.Reaches text r route) : d.dispatch handle s text =
    ((handle route.handler s r.method r.data).1.mapError .service,
      (handle route.handler s r.method r.data).2) := by
  simp only [dispatch, dispatchRequest, h.decoded, h.attached, Route.admits_iff.2 h.letIn, if_true]

/-- **A request that is refused changes nothing.** -/
theorem dispatch_of_refuses {e : DispatchError} (h : d.Refuses text e) :
    d.dispatch handle s text = (.error e, s) := by
  cases h with
  | unread hd => simp only [dispatch, hd]
  | noRoute hd hr => simp only [dispatch, dispatchRequest, hd, hr]
  | keptOut hd hr hout =>
    simp only [dispatch, dispatchRequest, hd, hr, mt Route.admits_iff.1 hout, if_false,
      Bool.false_eq_true]

/-- The refusal of a request of which no more is known than its route, or why it cannot be read. -/
def refusal (d : Dispatcher H) : Except Json.Fault String → DispatchError
  | .error fault => .invalidRequest fault
  | .ok name => if name ∈ d.routes then .unauthorized name else .noRoute name

/-- **A refusal tells no more than that.** -/
theorem Refuses.eq_refusal {e : DispatchError} (h : d.Refuses text e) :
    e = d.refusal ((ServiceRequest.decoder.decodeText text).map (·.route)) := by
  cases h with
  | unread hd =>
    rw [hd]
    rfl
  | noRoute hd hr =>
    have hout : _ ∉ d.routes := fun hin => by
      rw [mem_routes, hr] at hin
      cases hin
    rw [hd]
    exact (if_neg hout).symm
  | keptOut hd hr =>
    have hin := mem_routes.2 (Option.isSome_of_eq_some hr)
    rw [hd]
    exact (if_pos hin).symm

/-- **Two dispatchers with the same routes refuse alike.** Neither what stands behind the routes nor
what they ask for can be told from a refusal. -/
theorem refusal_congr {H' : Type} {d' : Dispatcher H'}
    (hroutes : ∀ name, name ∈ d.routes ↔ name ∈ d'.routes) : d.refusal = d'.refusal := by
  funext reading
  cases reading with
  | error fault => rfl
  | ok name => simp only [refusal, hroutes name]

/-- **A handler is called exactly where a request reaches its route**, once, and with what the
request says; listing the calls changes nothing. -/
theorem dispatch_traced (d : Dispatcher H) (handle : Handling H σ) (s : σ)
    (log : List (H × String × Json)) (text : String) :
    (d.dispatch handle.traced (s, log) text).1 = (d.dispatch handle s text).1 ∧
    (d.dispatch handle.traced (s, log) text).2.1 = (d.dispatch handle s text).2 ∧
    ((d.dispatch handle.traced (s, log) text).2.2 = log ∧
        (¬ ∃ r route, d.Reaches text r route) ∨
      ∃ r route, d.Reaches text r route ∧
        (d.dispatch handle.traced (s, log) text).2.2 =
          log ++ [(route.handler, r.method, r.data)]) := by
  rcases d.reaches_or_refuses text with ⟨r, route, h⟩ | ⟨e, h⟩
  · rw [dispatch_of_reaches h, dispatch_of_reaches h]
    exact ⟨rfl, rfl, .inr ⟨r, route, h, rfl⟩⟩
  · rw [dispatch_of_refuses h, dispatch_of_refuses h]
    exact ⟨rfl, rfl, .inl ⟨rfl, fun ⟨_, _, hreach⟩ => h.not_reaches hreach⟩⟩

end Dispatcher

/-! ## What a section asks for -/

namespace ConnectorSection

/-- What a section asks of callers, in so many words. Nothing follows from any other words. -/
inductive Requires (s : ConnectorSection) : AuthMode → Prop
  | nothing : s.authType.map Text.trim ∈ [none, some "", some "None"] → Requires s .none
  | basic {username password : String} :
    s.authType.map Text.trim = some "BasicHttpAuthentication" →
    s.username = some username → Text.isBlank username = false →
    s.password = some password → Text.isBlank password = false →
    Requires s (.basic (Text.trim username) (Text.trim password))

variable {s : ConnectorSection} {sectionName : String} {auth : AuthMode}

theorem required_eq_ok_iff {key : SectionKey} {value : Option String} {v : String} :
    required sectionName key value = .ok v ↔
      ∃ w, value = some w ∧ Text.isBlank w = false ∧ Text.trim w = v := by
  rcases value with - | w
  · simp [required]
  · cases hb : Text.isBlank w with
    | false => simp [required_of_some hb, hb]
    | true =>
      have hempty : Text.trim w = "" := Text.trim_eq_empty_iff.2 hb
      simp [required, hempty, hb]

/-- **A section asks for what it says**, and one that says anything else does not come up. -/
theorem authMode_eq_ok_iff : s.authMode sectionName = .ok auth ↔ s.Requires auth := by
  unfold authMode
  constructor
  · intro h
    split at h
    · rename_i ht
      cases h
      exact .nothing (by simp [ht])
    · rename_i ht
      cases h
      exact .nothing (by simp [ht])
    · rename_i ht
      cases h
      exact .nothing (by simp [ht])
    · rename_i ht
      rcases hu : required sectionName .username s.username with e | username <;> rw [hu] at h
      · cases h
      · rcases hp : required sectionName .password s.password with e | password <;> rw [hp] at h
        · cases h
        · cases h
          obtain ⟨u, hsu, hub, rfl⟩ := required_eq_ok_iff.1 hu
          obtain ⟨p, hsp, hpb, rfl⟩ := required_eq_ok_iff.1 hp
          exact .basic ht hsu hub hsp hpb
    · cases h
  · rintro (h | ⟨h, hu, hub, hp, hpb⟩)
    · simp only [List.mem_cons, List.not_mem_nil, or_false] at h
      rcases h with h | h | h <;> simp only [h]
    · rw [h, hu, hp, required_of_some hub, required_of_some hpb]
      rfl

end ConnectorSection

/-! ## How routes come about -/

/-- A step in which a dispatcher may get a route: a handler is attached to it, or a connector is
brought up from whatever the container is by then. -/
inductive Attachment where
  | attach (name : String) (handler : Handler) (auth : AuthMode)
  | bringUp (kind : ConnectorKind) (sectionName : String) (sections : ConnectorSections)
      (c : Container Implementation)

namespace Attachment

/-- What a dispatcher becomes by a step, if the step succeeds. -/
def perform (d : Dispatcher Handler) : Attachment → Except ConnectorError (Dispatcher Handler)
  | .attach name handler auth => d.attach name handler auth
  | .bringUp kind sectionName sections c => (kind.bringUp sectionName sections c d).1.map (·.2)

/-- What a step has to put on which route, whether or not that route is free. -/
def offer : Attachment → Option (String × Route Handler)
  | .attach name handler auth => some (name, ⟨handler, auth⟩)
  | .bringUp kind sectionName sections c =>
    match sections.judge sectionName with
    | .error _ => none
    | .ok (name, auth) =>
      (c.resolve kind.contract name).1.toOption.map fun i => (kind.route, ⟨.served i, auth⟩)

variable {a : Attachment} {d d' : Dispatcher Handler} {name : String} {r : Route Handler}

variable {kind : ConnectorKind} {sectionName : String} {sections : ConnectorSections}
  {c : Container Implementation}

/-- What a connector has to put on its route is decided by its section, and by what the section's
name resolves to. -/
theorem offer_bringUp : (bringUp kind sectionName sections c).offer = some (name, r) ↔
    ∃ implementation i, sections.judge sectionName = .ok (implementation, r.auth) ∧
      (c.resolve kind.contract implementation).1 = .ok i ∧
      name = kind.route ∧ r.handler = .served i := by
  cases hj : sections.judge sectionName with
  | error e => simp [offer, hj]
  | ok judged =>
    obtain ⟨implementation, auth⟩ := judged
    obtain ⟨handler, given⟩ := r
    cases hres : (c.resolve kind.contract implementation).1 with
    | error e =>
      simp only [offer, hj, hres, Except.toOption, Option.map_none, reduceCtorEq, false_iff]
      rintro ⟨_, i, ⟨⟩, hi, -⟩
      rw [hres] at hi
      cases hi
    | ok i =>
      simp only [offer, hj, hres, Except.toOption, Option.map_some, Option.some.injEq,
        Prod.mk.injEq, Route.mk.injEq]
      constructor
      · rintro ⟨rfl, rfl, rfl⟩
        exact ⟨implementation, i, rfl, hres, rfl, rfl⟩
      · rintro ⟨_, j, ⟨⟩, hj, rfl, rfl⟩
        rw [hres] at hj
        cases hj
        exact ⟨rfl, rfl, rfl⟩

theorem perform_of_offer (h : a.offer = some (name, r)) :
    a.perform d = d.attach name r.handler r.auth := by
  cases a with
  | attach name handler auth =>
    cases h
    rfl
  | bringUp kind sectionName sections c =>
    obtain ⟨implementation, i, hj, hres, rfl, hhandler⟩ := offer_bringUp.1 h
    rw [perform, ConnectorKind.bringUp_of_resolved hj (Prod.ext hres rfl), hhandler]
    cases d.attach kind.route (.served i) r.auth <;> rfl

theorem perform_of_offer_eq_none (h : a.offer = none) : ∃ e, a.perform d = .error e := by
  cases a with
  | attach name handler auth => cases h
  | bringUp kind sectionName sections c =>
    cases hj : sections.judge sectionName with
    | error e => exact ⟨e, by rw [perform, ConnectorKind.bringUp_of_error hj]; rfl⟩
    | ok judged =>
      cases hres : (c.resolve kind.contract judged.1).1 with
      | error e =>
        refine ⟨.resolution e, ?_⟩
        rw [perform, ConnectorKind.bringUp_of_refused hj (Prod.ext hres rfl)]
        rfl
      | ok i => simp [offer, hj, hres, Except.toOption] at h

/-- **A step succeeds when it has something to offer and its route is free.** -/
theorem perform_eq_ok_iff : (∃ d', a.perform d = .ok d') ↔
    ∃ o, a.offer = some o ∧ d.route? o.1 = none := by
  cases ho : a.offer with
  | none =>
    obtain ⟨e, he⟩ := perform_of_offer_eq_none (d := d) ho
    simp [he]
  | some o =>
    rw [perform_of_offer ho]
    cases hroute : d.route? o.1 with
    | none =>
      obtain ⟨d', hd', -⟩ := Dispatcher.attach_of_free o.2.handler o.2.auth hroute
      simp [hd', hroute]
    | some taken => simp [Dispatcher.attach, hroute]

/-- **A connector's route asks for what its section does**, in so many words. -/
theorem requires_of_offer (h : (bringUp kind sectionName sections c).offer = some (name, r)) :
    name = kind.route ∧ ∃ s, sections.get? sectionName = some s ∧ s.Requires r.auth := by
  obtain ⟨implementation, i, hj, -, hname, -⟩ := offer_bringUp.1 h
  obtain ⟨s, hs, -, hauth⟩ := ConnectorSections.of_judge_eq_ok hj
  exact ⟨hname, s, hs, ConnectorSection.authMode_eq_ok_iff.1 hauth⟩

end Attachment

/-- A dispatcher after some steps; those that fail leave it as it is. -/
def Dispatcher.attachAll (d : Dispatcher Handler) : List Attachment → Dispatcher Handler
  | [] => d
  | a :: rest => ((a.perform d).toOption.getD d).attachAll rest

/-- One step takes a route that was free, and no other. -/
theorem Dispatcher.route?_perform (d : Dispatcher Handler) (a : Attachment) (name : String) :
    ((a.perform d).toOption.getD d).route? name =
      (d.route? name).or (a.offer.toList.lookup name) := by
  cases ho : a.offer with
  | none =>
    obtain ⟨e, he⟩ := Attachment.perform_of_offer_eq_none (d := d) ho
    rw [he]
    exact (Option.or_none).symm
  | some o =>
    obtain ⟨offered, r⟩ := o
    rw [Attachment.perform_of_offer ho]
    cases hroute : d.route? offered with
    | none =>
      -- the step succeeds, and the route it takes is the only new one
      obtain ⟨d', hd', hroutes⟩ := attach_of_free r.handler r.auth hroute
      rw [hd']
      simp only [Except.toOption, Option.getD_some, hroutes, Option.toList_some]
      by_cases hname : name = offered
      · rw [if_pos hname, hname, hroute]
        simp
      · have hne : (name == offered) = false := by simpa using hname
        rw [if_neg hname]
        simp [List.lookup_cons, hne]
    | some taken =>
      -- the step fails, and a route of that name was there already
      have hfull : d.attach offered r.handler r.auth = .error (.routeInUse offered) := by
        simp [attach, hroute]
      rw [hfull]
      simp only [Except.toOption, Option.getD_none, Option.toList_some]
      by_cases hname : name = offered
      · rw [hname, hroute]
        rfl
      · have hne : (name == offered) = false := by simpa using hname
        simp [List.lookup_cons, hne]

/-- **A route is what the first step made it that had something for it**, and stays that. -/
theorem Dispatcher.route?_attachAll (steps : List Attachment) (name : String) :
    ∀ d : Dispatcher Handler, (d.attachAll steps).route? name =
      (d.route? name).or ((steps.filterMap Attachment.offer).lookup name) := by
  induction steps with
  | nil => intro d; exact (Option.or_none).symm
  | cons a rest ih =>
    intro d
    rw [attachAll, ih, route?_perform, Option.or_assoc, ← List.lookup_append]
    cases ho : a.offer <;> simp [ho]

/-! ## Requests at any dispatcher -/

/-- What a dispatcher does with every request, whatever stands behind its routes. -/
structure Dispatcher.Guards {H : Type} (d : Dispatcher H) : Prop where
  /-- A handler is called exactly where a request reaches its route, and with what that request
  says. -/
  called : ∀ {σ : Type} (handle : Handling H σ) (s : σ) (log : List (H × String × Json))
      (text : String) (call : H × String × Json),
    (d.dispatch handle.traced (s, log) text).2.2 = log ++ [call] ↔
      ∃ r route, d.Reaches text r route ∧ call = (route.handler, r.method, r.data)
  /-- The handler's answer is the answer, and its change of the state is made. -/
  answered : ∀ {σ : Type} (handle : Handling H σ) (s : σ) (text : String) (r : ServiceRequest)
      (route : Route H), d.Reaches text r route → d.dispatch handle s text =
    ((handle route.handler s r.method r.data).1.mapError .service,
      (handle route.handler s r.method r.data).2)
  /-- Any other request is refused for what is wrong with it first: nothing is called and nothing
  is changed. -/
  refused : ∀ {σ : Type} (handle : Handling H σ) (s : σ) (log : List (H × String × Json))
      (text : String), (¬ ∃ r route, d.Reaches text r route) →
    ∃ e, d.Refuses text e ∧ d.dispatch handle s text = (.error e, s) ∧
      (d.dispatch handle.traced (s, log) text).2.2 = log
  /-- A refusal tells the route of the request and which routes there are, or what is wrong with the
  text, and nothing else. -/
  alike : ∀ {H' σ σ' : Type} (d' : Dispatcher H') (handle : Handling H σ)
      (handle' : Handling H' σ') (s : σ) (s' : σ') (text text' : String),
    (∀ name, name ∈ d.routes ↔ name ∈ d'.routes) →
    (ServiceRequest.decoder.decodeText text).map (·.route) =
      (ServiceRequest.decoder.decodeText text').map (·.route) →
    (¬ ∃ r route, d.Reaches text r route) → (¬ ∃ r route, d'.Reaches text' r route) →
    (d.dispatch handle s text).1 = (d'.dispatch handle' s' text').1

theorem Dispatcher.guards {H : Type} (d : Dispatcher H) : d.Guards where
  called handle s log text call := by
    constructor
    · intro hcall
      obtain ⟨-, -, ⟨hlog, -⟩ | ⟨r, route, hreach, hlog⟩⟩ := d.dispatch_traced handle s log text
      · rw [hlog] at hcall
        simp at hcall
      · rw [hlog] at hcall
        exact ⟨r, route, hreach, by simpa using hcall.symm⟩
    · rintro ⟨r, route, hreach, rfl⟩
      rw [dispatch_of_reaches hreach]
      rfl
  answered handle s text r route h := dispatch_of_reaches h
  refused handle s log text hout := by
    obtain ⟨e, he⟩ := (d.reaches_or_refuses text).resolve_left hout
    exact ⟨e, he, dispatch_of_refuses he, by rw [dispatch_of_refuses he]⟩
  alike d' handle handle' s s' text text' hroutes htext hout hout' := by
    obtain ⟨e, he⟩ := (d.reaches_or_refuses text).resolve_left hout
    obtain ⟨e', he'⟩ := (d'.reaches_or_refuses text').resolve_left hout'
    rw [dispatch_of_refuses he, dispatch_of_refuses he', he.eq_refusal, he'.eq_refusal, htext,
      refusal_congr hroutes]

/-- **Only what a route asks for opens it.** Whatever has been attached and brought up, in whatever
order and with whatever success: a route is what the first step made it that could, and asks for
what that step said; a handler is called for the requests that its route lets in and for no others;
the others are refused without a trace of what is behind the routes; and a connector's route asks
for what its section says, where the section says it properly, or does not come up. -/
theorem requests_guarded (steps : List Attachment) :
    (∀ name, (Dispatcher.empty.attachAll steps).route? name =
      (steps.filterMap Attachment.offer).lookup name) ∧
    (∀ (a : Attachment) d, (∃ d', a.perform d = .ok d') ↔
      ∃ o, a.offer = some o ∧ d.route? o.1 = none) ∧
    (Dispatcher.empty.attachAll steps).Guards ∧
    (∀ kind sectionName sections c name (r : Route Handler),
      (Attachment.bringUp kind sectionName sections c).offer = some (name, r) →
      name = kind.route ∧ ∃ s, sections.get? sectionName = some s ∧ s.Requires r.auth) ∧
    ∀ kind sectionName (sections : ConnectorSections) c s, sections.get? sectionName = some s →
      (∀ auth, ¬ s.Requires auth) → ∀ d, (Dispatcher.attachAll d
        [.bringUp kind sectionName sections c]) = d := by
  refine ⟨fun name => ?_, fun a d => Attachment.perform_eq_ok_iff, Dispatcher.guards _,
    fun _ _ _ _ _ _ => Attachment.requires_of_offer,
    fun kind sectionName sections c s hs hno d => ?_⟩
  · exact (Dispatcher.route?_attachAll steps name .empty).trans Option.none_or
  · have hnone : (Attachment.bringUp kind sectionName sections c).offer = none := by
      refine Option.eq_none_iff_forall_ne_some.2 fun o ho => ?_
      obtain ⟨-, s', hs', hrequires⟩ := Attachment.requires_of_offer ho
      rw [hs] at hs'
      cases hs'
      exact hno _ hrequires
    obtain ⟨e, he⟩ := Attachment.perform_of_offer_eq_none (d := d) hnone
    rw [Dispatcher.attachAll, he]
    rfl

end ModularHost
