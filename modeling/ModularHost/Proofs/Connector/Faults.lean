import ModularHost.Proofs.Connector.Access
import ModularHost.Proofs.Connector.Resolutions
import ModularHost.Proofs.Container.Unaided
/-!
# Why a connector does not come up

A section is looked at first, then its name is resolved, then the route is taken; the first thing
that is wrong is the answer (`ConnectorKind.bringUp_eq_error_iff`). What is wrong with a section, or
with the name it gives, is found before any factory is run. Beyond that point one binding has been
asked for its instance, and the dispatcher is as it was unless the connector comes up.
-/


namespace ModularHost

/-! ## What is wrong with a section -/

namespace ConnectorSection

/-- A value that is absent, or blank. -/
def Lacks (value : Option String) : Prop := value.all Text.isBlank = true

/-- The words of a section about who may call. -/
def words (s : ConnectorSection) : Option String := s.authType.map Text.trim

variable {s : ConnectorSection} {sectionName : String} {key : SectionKey} {value : Option String}

theorem required_of_lacks (h : Lacks value) :
    required sectionName key value = .error (.missingConfiguration sectionName (some key)) := by
  rcases value with - | v
  · rfl
  · have hempty : Text.trim v = "" := Text.trim_eq_empty_iff.2 h
    simp [required, hempty]

theorem not_lacks_iff : ¬ Lacks value ↔ ∃ v, value = some v ∧ Text.isBlank v = false := by
  rcases value with - | v <;> simp [Lacks]

/-- **What is wrong with what a section says of callers**: the words are none of those that are
known, or they call for a username and a password and one of these is missing. -/
inductive Withholds (s : ConnectorSection) (sectionName : String) : ConnectorError → Prop
  | unknown {words : String} : s.words = some words →
    words ∉ ["", "None", "BasicHttpAuthentication"] →
    Withholds s sectionName (.unknownAuthType sectionName words)
  | noUsername : s.words = some "BasicHttpAuthentication" → Lacks s.username →
    Withholds s sectionName (.missingConfiguration sectionName (some .username))
  | noPassword : s.words = some "BasicHttpAuthentication" → ¬ Lacks s.username →
    Lacks s.password → Withholds s sectionName (.missingConfiguration sectionName (some .password))

theorem authMode_of_withholds {e : ConnectorError} (h : s.Withholds sectionName e) :
    s.authMode sectionName = .error e := by
  unfold authMode
  cases h with
  | @unknown words hwords hnew =>
    replace hwords : s.authType.map Text.trim = some words := hwords
    simp only [List.mem_cons, List.not_mem_nil, or_false, not_or] at hnew
    rw [hwords]
    split
    · rename_i h
      cases h
    · rename_i h
      exact absurd (Option.some.inj h) hnew.1
    · rename_i h
      exact absurd (Option.some.inj h) hnew.2.1
    · rename_i h
      exact absurd (Option.some.inj h) hnew.2.2
    · rename_i h
      rw [Option.some.inj h]
  | noUsername hwords hu =>
    replace hwords : s.authType.map Text.trim = some "BasicHttpAuthentication" := hwords
    rw [hwords, required_of_lacks hu]
    rfl
  | noPassword hwords hu hp =>
    replace hwords : s.authType.map Text.trim = some "BasicHttpAuthentication" := hwords
    obtain ⟨u, hu, hub⟩ := not_lacks_iff.1 hu
    rw [hwords, hu, required_of_some hub, required_of_lacks hp]
    rfl

/-- A section says who may call, or withholds it. -/
theorem requires_or_withholds (s : ConnectorSection) (sectionName : String) :
    (∃ auth, s.Requires auth) ∨ ∃ e, s.Withholds sectionName e := by
  by_cases hplain : s.words ∈ [none, some "", some "None"]
  · exact .inl ⟨.none, .nothing hplain⟩
  · simp only [List.mem_cons, List.not_mem_nil, or_false, not_or] at hplain
    obtain ⟨words, hwords⟩ := Option.ne_none_iff_exists'.1 hplain.1
    rw [hwords, Option.some.injEq, Option.some.injEq] at hplain
    by_cases hbasic : words = "BasicHttpAuthentication"
    · rw [hbasic] at hwords
      by_cases hu : Lacks s.username
      · exact .inr ⟨_, .noUsername hwords hu⟩
      · by_cases hp : Lacks s.password
        · exact .inr ⟨_, .noPassword hwords hu hp⟩
        · obtain ⟨u, hsu, hub⟩ := not_lacks_iff.1 hu
          obtain ⟨p, hsp, hpb⟩ := not_lacks_iff.1 hp
          exact .inl ⟨_, .basic hwords hsu hub hsp hpb⟩
    · exact .inr ⟨_, .unknown hwords (by simp [hplain.2, hbasic])⟩

end ConnectorSection

namespace ConnectorSections

open ConnectorSection (Lacks)

variable {sections : ConnectorSections} {sectionName name : String} {auth : AuthMode}

/-- A section names an implementation, and says who may call. -/
def Asks (sections : ConnectorSections) (sectionName name : String) (auth : AuthMode) : Prop :=
  ∃ s v, sections.get? sectionName = some s ∧ s.implementation = some v ∧
    Text.isBlank v = false ∧ Text.trim v = name ∧ s.Requires auth

/-- **What is wrong with a section**, the first thing first. -/
inductive Faulty (sections : ConnectorSections) (sectionName : String) : ConnectorError → Prop
  | absent : sections.get? sectionName = none →
    Faulty sections sectionName (.missingConfiguration sectionName none)
  | unnamed {s : ConnectorSection} : sections.get? sectionName = some s → Lacks s.implementation →
    Faulty sections sectionName (.missingConfiguration sectionName (some .implementation))
  | withheld {s : ConnectorSection} {e : ConnectorError} : sections.get? sectionName = some s →
    ¬ Lacks s.implementation → s.Withholds sectionName e → Faulty sections sectionName e

theorem judge_of_asks (h : sections.Asks sectionName name auth) :
    sections.judge sectionName = .ok (name, auth) := by
  obtain ⟨s, v, hs, hv, hb, rfl, hauth⟩ := h
  exact judge_eq_ok hs hv hb (ConnectorSection.authMode_eq_ok_iff.2 hauth)

theorem judge_of_faulty {e : ConnectorError} (h : sections.Faulty sectionName e) :
    sections.judge sectionName = .error e := by
  cases h with
  | absent hs => simp [judge, find, hs, bind, Except.bind]
  | @unnamed s hs hv =>
    have hname : s.implementationName sectionName = .error (.missingConfiguration sectionName
        (some .implementation)) := ConnectorSection.required_of_lacks hv
    simp [judge, find, hs, hname, bind, Except.bind]
  | @withheld s e hs hv he =>
    obtain ⟨v, hv, hb⟩ := ConnectorSection.not_lacks_iff.1 hv
    have hname : s.implementationName sectionName = .ok (Text.trim v) := by
      rw [ConnectorSection.implementationName, hv]
      exact ConnectorSection.required_of_some hb
    simp [judge, find, hs, hname, ConnectorSection.authMode_of_withholds he, bind, Except.bind]

theorem asks_or_faulty (sections : ConnectorSections) (sectionName : String) :
    (∃ name auth, sections.Asks sectionName name auth) ∨ ∃ e, sections.Faulty sectionName e := by
  cases hs : sections.get? sectionName with
  | none => exact .inr ⟨_, .absent hs⟩
  | some s =>
    by_cases hv : Lacks s.implementation
    · exact .inr ⟨_, .unnamed hs hv⟩
    · rcases s.requires_or_withholds sectionName with ⟨auth, hauth⟩ | ⟨e, he⟩
      · obtain ⟨v, hsv, hb⟩ := ConnectorSection.not_lacks_iff.1 hv
        exact .inl ⟨_, auth, s, v, hs, hsv, hb, rfl, hauth⟩
      · exact .inr ⟨e, .withheld hs hv he⟩

end ConnectorSections

/-! ## What is wrong with a connector -/

namespace ConnectorKind

variable {kind : ConnectorKind} {sectionName : String} {sections : ConnectorSections}
  {c : Container Implementation} {d : Dispatcher Handler} {e : ConnectorError}

/-- **Why a connector does not come up**, the first reason first. -/
inductive Refuses (kind : ConnectorKind) (sectionName : String) (sections : ConnectorSections)
    (c : Container Implementation) (d : Dispatcher Handler) : ConnectorError → Prop
  | faulty {e : ConnectorError} : sections.Faulty sectionName e →
    Refuses kind sectionName sections c d e
  | unresolved {name : String} {auth : AuthMode} {e : ContainerError} :
    sections.Asks sectionName name auth → (c.resolve kind.contract name).1 = .error e →
    Refuses kind sectionName sections c d (.resolution e)
  | taken {name : String} {auth : AuthMode} {i : Instance Implementation} {r : Route Handler} :
    sections.Asks sectionName name auth → (c.resolve kind.contract name).1 = .ok i →
    d.route? kind.route = some r → Refuses kind sectionName sections c d (.routeInUse kind.route)

/-- Everything a connector needs is there. -/
structure ComesUp (kind : ConnectorKind) (sectionName : String) (sections : ConnectorSections)
    (c : Container Implementation) (d : Dispatcher Handler) (name : String) (auth : AuthMode)
    (i : Instance Implementation) : Prop where
  asks : sections.Asks sectionName name auth
  resolved : (c.resolve kind.contract name).1 = .ok i
  free : d.route? kind.route = none

theorem comesUp_or_refuses (kind : ConnectorKind) (sectionName : String)
    (sections : ConnectorSections) (c : Container Implementation) (d : Dispatcher Handler) :
    (∃ name auth i, kind.ComesUp sectionName sections c d name auth i) ∨
      ∃ e, kind.Refuses sectionName sections c d e := by
  rcases sections.asks_or_faulty sectionName with ⟨name, auth, hasks⟩ | ⟨e, he⟩
  · cases hres : (c.resolve kind.contract name).1 with
    | error e => exact .inr ⟨_, .unresolved hasks hres⟩
    | ok i =>
      cases hroute : d.route? kind.route with
      | none => exact .inl ⟨name, auth, i, hasks, hres, hroute⟩
      | some r => exact .inr ⟨_, .taken hasks hres hroute⟩
  · exact .inr ⟨e, .faulty he⟩

/-- A connector that comes up takes its route, behind the routes there were. -/
theorem bringUp_of_comesUp {name : String} {auth : AuthMode} {i : Instance Implementation}
    (h : kind.ComesUp sectionName sections c d name auth i) :
    kind.bringUp sectionName sections c d =
      (.ok (i, ⟨d.entries ++ [(kind.route, ⟨.served i, auth⟩)]⟩),
        (c.resolve kind.contract name).2) := by
  have hattach : d.attach kind.route (.served i) auth =
      .ok ⟨d.entries ++ [(kind.route, ⟨.served i, auth⟩)]⟩ := by
    simp [Dispatcher.attach, h.free]
  rw [bringUp_of_resolved (ConnectorSections.judge_of_asks h.asks) (Prod.ext h.resolved rfl),
    hattach]
  rfl

theorem bringUp_of_refuses (h : kind.Refuses sectionName sections c d e) :
    (kind.bringUp sectionName sections c d).1 = .error e := by
  cases h with
  | faulty hfaulty => rw [bringUp_of_error (ConnectorSections.judge_of_faulty hfaulty)]
  | unresolved hasks hres =>
    rw [bringUp_of_refused (ConnectorSections.judge_of_asks hasks) (Prod.ext hres rfl)]
  | taken hasks hres hroute =>
    rw [bringUp_of_resolved (ConnectorSections.judge_of_asks hasks) (Prod.ext hres rfl)]
    simp [Dispatcher.attach, hroute, Except.map]

/-- **A connector fails with the first thing that is wrong.** -/
theorem bringUp_eq_error_iff : (kind.bringUp sectionName sections c d).1 = .error e ↔
    kind.Refuses sectionName sections c d e := by
  refine ⟨fun he => ?_, bringUp_of_refuses⟩
  rcases kind.comesUp_or_refuses sectionName sections c d with ⟨_, _, _, hup⟩ | ⟨e', he'⟩
  · rw [bringUp_of_comesUp hup] at he
    cases he
  · rw [bringUp_of_refuses he'] at he
    cases he
    exact he'

theorem bringUp_eq_ok_iff {i : Instance Implementation} {d' : Dispatcher Handler} :
    (kind.bringUp sectionName sections c d).1 = .ok (i, d') ↔
      ∃ name auth, kind.ComesUp sectionName sections c d name auth i ∧
        d' = ⟨d.entries ++ [(kind.route, ⟨.served i, auth⟩)]⟩ := by
  constructor
  · intro hok
    rcases kind.comesUp_or_refuses sectionName sections c d with ⟨name, auth, j, hup⟩ | ⟨e, he⟩
    · rw [bringUp_of_comesUp hup] at hok
      cases hok
      exact ⟨name, auth, hup, rfl⟩
    · rw [bringUp_of_refuses he] at hok
      cases hok
  · rintro ⟨name, auth, hup, rfl⟩
    rw [bringUp_of_comesUp hup]

/-! ## What is left behind -/

/-- The container after the named binding has been asked for its instance, which it held, or made
by one run of its factory. No other binding has been touched. -/
def Served (c : Container Implementation) (b : Binding Implementation)
    (c' : Container Implementation) : Prop :=
  b.materialized = true ∧ c' = c ∨ b.materialized = false ∧ ∃ b', c.RanOnce b b' c'

/-- **What an attempt to bring a connector up comes to**, and what it leaves of the container and
the dispatcher. -/
structure AttemptLeaves (kind : ConnectorKind) (sectionName : String) (sections : ConnectorSections)
    (c : Container Implementation) (d : Dispatcher Handler) : Prop where
  /-- The first thing that is wrong is the answer. -/
  fails : ∀ e, (kind.bringUp sectionName sections c d).1 = .error e ↔
    kind.Refuses sectionName sections c d e
  /-- A connector that does not come up leaves the dispatcher as it is. -/
  routes : ∀ e, kind.Refuses sectionName sections c d e →
    d.attachAll [.bringUp kind sectionName sections c] = d
  /-- What is wrong with a section is found before the container is asked for anything. -/
  faulty : ∀ e, sections.Faulty sectionName e → (kind.bringUp sectionName sections c d).2 = c
  /-- A name that cannot be resolved is not bound, or its factory has failed. -/
  resolution : ∀ e, (kind.bringUp sectionName sections c d).1 = .error (.resolution e) →
    ∃ name auth, sections.Asks sectionName name auth ∧
      (e = .unresolvedName kind.contract.name name ∨
        ∃ contract reason, e = .constructionFailed contract name reason)
  /-- Nothing becomes of the container where the name is not bound. -/
  unresolved : ∀ contract name,
    (kind.bringUp sectionName sections c d).1 =
      .error (.resolution (.unresolvedName contract name)) →
    c.find? kind.contract name = none ∧ (kind.bringUp sectionName sections c d).2 = c
  /-- A factory that fails has been run once, and its binding holds as little as before. -/
  failed : ∀ contract name reason,
    (kind.bringUp sectionName sections c d).1 =
      .error (.resolution (.constructionFailed contract name reason)) →
    ∃ b b', c.find? kind.contract name = some b ∧ b.materialized = false ∧
      c.RanOnce b b' (kind.bringUp sectionName sections c d).2 ∧ b'.materialized = false
  /-- A route that is taken stays with what has taken it, and the named binding alone has been
  asked. -/
  taken : ∀ route, (kind.bringUp sectionName sections c d).1 = .error (.routeInUse route) →
    route = kind.route ∧ (∃ r, d.route? route = some r) ∧
      ∃ name auth b, sections.Asks sectionName name auth ∧
        c.find? kind.contract name = some b ∧
        Served c b (kind.bringUp sectionName sections c d).2
  /-- A connector that comes up has its route, under the terms of its section, behind the routes
  that there were. -/
  comesUp : ∀ i d', (kind.bringUp sectionName sections c d).1 = .ok (i, d') →
    ∃ name auth b, kind.ComesUp sectionName sections c d name auth i ∧
      c.find? kind.contract name = some b ∧ Served c b (kind.bringUp sectionName sections c d).2 ∧
      d'.entries = d.entries ++ [(kind.route, ⟨.served i, auth⟩)] ∧
      ∀ route, d'.route? route =
        if route = kind.route then some ⟨.served i, auth⟩ else d.route? route

/-- What comes of the container where the section's name resolves. -/
theorem served_of_resolved {name : String} {auth : AuthMode} {i : Instance Implementation}
    (hc : c.Unaided) (hasks : sections.Asks sectionName name auth)
    (hres : (c.resolve kind.contract name).1 = .ok i) :
    ∃ b, c.find? kind.contract name = some b ∧
      Served c b (kind.bringUp sectionName sections c d).2 := by
  have hleft := hc.resolution kind.contract name
  rw [Container.snd_bringUp (ConnectorSections.judge_of_asks hasks)]
  rw [hres] at hleft
  generalize (c.resolve kind.contract name).2 = c' at hleft
  cases hleft with
  | held hf _ hheld =>
    refine ⟨_, hf, .inl ⟨?_, rfl⟩⟩
    obtain ⟨made, hcell, -⟩ := Option.map_eq_some_iff.1 hheld
    exact Option.isSome_of_eq_some hcell
  | made hf hunmade hran => exact ⟨_, hf, .inr ⟨hunmade, _, hran⟩⟩

/-- What comes of the container where the section's name does not resolve. -/
theorem resolution_of_refuses {e : ContainerError} (hc : c.Unaided)
    (h : kind.Refuses sectionName sections c d (.resolution e)) :
    ∃ name auth, sections.Asks sectionName name auth ∧
      c.Resolution kind.contract name (.error e) (kind.bringUp sectionName sections c d).2 := by
  cases h with
  | faulty hfaulty => cases hfaulty with | withheld _ _ hwithholds => cases hwithholds
  | unresolved hasks hres =>
    refine ⟨_, _, hasks, ?_⟩
    rw [Container.snd_bringUp (ConnectorSections.judge_of_asks hasks), ← hres]
    exact hc.resolution kind.contract _

theorem taken_of_refuses {route : String}
    (h : kind.Refuses sectionName sections c d (.routeInUse route)) :
    route = kind.route ∧ (∃ r, d.route? route = some r) ∧
      ∃ name auth i, sections.Asks sectionName name auth ∧
        (c.resolve kind.contract name).1 = .ok i := by
  cases h with
  | faulty hfaulty => cases hfaulty with | withheld _ _ hwithholds => cases hwithholds
  | taken hasks hres hroute => exact ⟨rfl, ⟨_, hroute⟩, _, _, _, hasks, hres⟩

theorem attemptLeaves_of_unaided (hc : c.Unaided) :
    kind.AttemptLeaves sectionName sections c d where
  fails e := bringUp_eq_error_iff
  routes e he := by
    simp only [Dispatcher.attachAll, Attachment.perform, bringUp_of_refuses he]
    rfl
  faulty e he := by rw [bringUp_of_error (ConnectorSections.judge_of_faulty he)]
  resolution e he := by
    obtain ⟨name, auth, hasks, hleft⟩ := resolution_of_refuses hc (bringUp_eq_error_iff.1 he)
    refine ⟨name, auth, hasks, ?_⟩
    generalize (kind.bringUp sectionName sections c d).2 = c' at hleft
    cases hleft with
    | unresolved => exact .inl rfl
    | failed hf => exact .inr ⟨_, _, by rw [(Container.same_of_find?_eq_some hf).2]⟩
  unresolved contract name he := by
    obtain ⟨_, _, -, hleft⟩ := resolution_of_refuses hc (bringUp_eq_error_iff.1 he)
    generalize (kind.bringUp sectionName sections c d).2 = c' at hleft
    cases hleft with
    | unresolved hf => exact ⟨hf, rfl⟩
  failed contract name reason he := by
    obtain ⟨_, _, -, hleft⟩ := resolution_of_refuses hc (bringUp_eq_error_iff.1 he)
    cases hleft with
    | @failed b b' _ _ hf hunmade hran hstill =>
      have hname := (Container.same_of_find?_eq_some hf).2
      exact ⟨b, b', hname ▸ hf, hunmade, hran, hstill⟩
  taken route he := by
    obtain ⟨hroute, htaken, name, auth, i, hasks, hres⟩ :=
      taken_of_refuses (bringUp_eq_error_iff.1 he)
    obtain ⟨b, hf, hserved⟩ := served_of_resolved hc hasks hres
    exact ⟨hroute, htaken, name, auth, b, hasks, hf, hserved⟩
  comesUp i d' hok := by
    obtain ⟨name, auth, hup, rfl⟩ := bringUp_eq_ok_iff.1 hok
    obtain ⟨b, hf, hserved⟩ := served_of_resolved hc hup.asks hup.resolved
    obtain ⟨d', hattach, hroutes⟩ := Dispatcher.attach_of_free (.served i) auth hup.free
    have hd' : d' = ⟨d.entries ++ [(kind.route, ⟨.served i, auth⟩)]⟩ := by
      simpa [Dispatcher.attach, hup.free] using hattach.symm
    exact ⟨name, auth, b, hup, hf, hserved, rfl, hd' ▸ hroutes⟩

end ConnectorKind

/-- **A connector that does not come up leaves behind what it should.** Whatever calls a container
has had, if their factories ask it for nothing: a connector fails with the first thing that is
wrong, what is wrong with its section or its name is found before any factory is run, a factory that
fails is run once and leaves its binding empty, a route that is taken keeps what has taken it, and a
connector that comes up adds its own route under its section's terms. -/
theorem bringUp_accounts (calls : List (ContainerCall Implementation))
    (hcalls : ∀ call ∈ calls, call.Unaided) (kind : ConnectorKind) (sectionName : String)
    (sections : ConnectorSections) (d : Dispatcher Handler) :
    kind.AttemptLeaves sectionName sections (Container.empty.run calls).2 d :=
  ConnectorKind.attemptLeaves_of_unaided
    (Container.Unaided.run calls hcalls Container.unaided_empty)

/-- Two asset services, one of which cannot be made. -/
def brokenStore : List (ContainerCall Implementation) :=
  [.register assetServiceContract "store" .singleton (.make (.assets .memory)),
    .register assetServiceContract "broken" .singleton (.build fun _ _ => .error "no disk")]

def brokenSections : ConnectorSections := ⟨[("AssetService", .ofImplementation "broken")]⟩

theorem bringUp_accounts_broken :
    (∀ call ∈ brokenStore, call.Unaided) ∧
    (assetConnector.bringUp "AssetService" brokenSections (Container.empty.run brokenStore).2
      .empty).1 = .error (.resolution (.constructionFailed "AssetService" "broken" "no disk")) ∧
    ∃ b b', (Container.empty.run brokenStore).2.find? assetServiceContract "broken" = some b ∧
      b.materialized = false ∧ b'.materialized = false ∧
      (Container.empty.run brokenStore).2.RanOnce b b'
        (assetConnector.bringUp "AssetService" brokenSections (Container.empty.run brokenStore).2
          .empty).2 := by
  have hcalls : ∀ call ∈ brokenStore, call.Unaided := by
    intro call hcall
    simp only [brokenStore, List.mem_cons, List.not_mem_nil, or_false] at hcall
    rcases hcall with rfl | rfl <;> trivial
  have herror : (assetConnector.bringUp "AssetService" brokenSections
      (Container.empty.run brokenStore).2 .empty).1 =
        .error (.resolution (.constructionFailed "AssetService" "broken" "no disk")) := by
    rfl
  obtain ⟨b, b', hf, hunmade, hran, hstill⟩ :=
    (bringUp_accounts brokenStore hcalls assetConnector "AssetService" brokenSections .empty).failed
      _ _ _ herror
  exact ⟨hcalls, herror, b, b', hf, hunmade, hstill, hran⟩

end ModularHost
