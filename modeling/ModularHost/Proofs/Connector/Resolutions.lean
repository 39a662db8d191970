import ModularHost.Proofs.Connector.BringUp
import ModularHost.Proofs.Container.Lifetime
/-!
# Resolutions, whoever asks

A host resolves in three ways: by a name, all implementations of a contract at once, and by bringing
a connector up. All three end at the same bindings. A connector that is brought up asks the
container for one resolution or for nothing at all (`HostCall.asked`), so a run of a host is a run
of calls as far as the container is concerned (`Container.serveAll_eq_run`), and whatever the
journal of that run shows of the bindings holds of all three ways (`resolutions_of_every_run`).
-/


namespace ModularHost

/-- What a host does: it calls the container, or brings a connector up. -/
inductive HostCall where
  | ask (call : ContainerCall Implementation)
  | bringUp (kind : ConnectorKind) (sectionName : String) (sections : ConnectorSections)
      (d : Dispatcher Handler)

/-- What comes of it. -/
inductive HostAnswer where
  | called (answer : ContainerAnswer Implementation)
  | broughtUp (outcome : Except ConnectorError (Instance Implementation × Dispatcher Handler))

/-- Whether whoever asked waits for what waits for itself. -/
def HostAnswer.isEndless : HostAnswer → Bool
  | .called (.refused .endless) => true
  | .broughtUp (.error (.resolution .endless)) => true
  | _ => false

namespace Container

def serve (c : Container Implementation) : HostCall → HostAnswer × Container Implementation
  | .ask call => (c.perform call).map .called id
  | .bringUp kind sectionName sections d =>
    (kind.bringUp sectionName sections c d).map .broughtUp id

/-- One thing after the other, with the answers. -/
def serveAll (c : Container Implementation) :
    List HostCall → List HostAnswer × Container Implementation
  | [] => ([], c)
  | call :: rest =>
    let (answer, c) := c.serve call
    let (answers, c) := c.serveAll rest
    (answer :: answers, c)

end Container

/-! ## What is asked, and what is handed out -/

/-- The instances that an answer hands out, each under the key of its binding. -/
def ContainerCall.given {β : Type} :
    ContainerCall β → ContainerAnswer β → List (BindingKey × Instance β)
  | .resolve contract name, .resolved i => [(contract.key name, i)]
  | .resolveAll contract, .resolvedAll found => found.map fun e => (contract.key e.1, e.2)
  | _, _ => []

namespace HostCall

/-- What the container is asked for. A section that is wrong stops everything before that. -/
def asked : HostCall → List (ContainerCall Implementation)
  | .ask call => [call]
  | .bringUp kind sectionName sections _ =>
    match sections.judge sectionName with
    | .ok (name, _) => [.resolve kind.contract name]
    | .error _ => []

/-- The instances that an answer hands out, each under the key of its binding. -/
def given : HostCall → HostAnswer → List (BindingKey × Instance Implementation)
  | .ask call, .called answer => call.given answer
  | .bringUp kind sectionName sections _, .broughtUp (.ok (i, _)) =>
    match sections.judge sectionName with
    | .ok (name, _) => [(kind.contract.key name, i)]
    | .error _ => []
  | _, _ => []

/-- The journal of a run from the start. -/
def journal (calls : List HostCall) : Journal Implementation :=
  Container.empty.runJournal (calls.flatMap asked)

/-- The instances of one binding that a run hands out. -/
def handedOut (calls : List HostCall) (answers : List HostAnswer) (key : BindingKey) :
    List (Instance Implementation) :=
  ((calls.zip answers).flatMap fun e => e.1.given e.2).filterMap fun e =>
    if e.1 = key then some e.2 else none

end HostCall

/-! ## A host's run is a run of calls -/

namespace Container

variable {c : Container Implementation} {kind : ConnectorKind} {sectionName : String}
  {sections : ConnectorSections} {d : Dispatcher Handler}

/-- Bringing a connector up does to the container what resolving the section's name does. -/
theorem snd_bringUp {name : String} {auth : AuthMode}
    (hj : sections.judge sectionName = .ok (name, auth)) :
    (kind.bringUp sectionName sections c d).2 = (c.resolve kind.contract name).2 := by
  rcases hres : c.resolve kind.contract name with ⟨e | i, c'⟩
  · rw [ConnectorKind.bringUp_of_refused hj hres]
  · rw [ConnectorKind.bringUp_of_resolved hj hres]

theorem serve_eq_run (c : Container Implementation) (call : HostCall) :
    (c.serve call).2 = (c.run call.asked).2 := by
  cases call with
  | ask call => rfl
  | bringUp kind sectionName sections d =>
    simp only [serve, HostCall.asked, Prod.map_snd, id]
    cases hj : sections.judge sectionName with
    | error e => rw [ConnectorKind.bringUp_of_error hj]; rfl
    | ok judged => exact snd_bringUp hj

/-- **The container cannot tell a host from its calls.** -/
theorem serveAll_eq_run (calls : List HostCall) :
    ∀ c : Container Implementation,
      (c.serveAll calls).2 = (c.run (calls.flatMap HostCall.asked)).2 := by
  induction calls with
  | nil => intro c; rfl
  | cons call rest ih =>
    intro c
    rw [List.flatMap_cons, run_append, ← serve_eq_run]
    exact ih (c.serve call).2

/-! ## What is handed out is in the journal -/

theorem mem_performJournal {β : Type} {c : Container β} {call : ContainerCall β} {key : BindingKey}
    {i : Instance β} (h : (key, i) ∈ call.given (c.perform call).1) :
    ∃ how, (key, .answered how (.ok i)) ∈ c.performJournal call := by
  cases call with
  | resolve contract name =>
    rcases hres : (c.resolve contract name).1 with e | j <;>
      simp [perform, hres, ContainerAnswer.ofResolved, ContainerCall.given] at h
    obtain ⟨rfl, rfl⟩ := h
    exact mem_resolveJournal hres
  | resolveAll contract =>
    rcases hall : (c.resolveAll contract).1 with e | found <;>
      simp [perform, hall, ContainerAnswer.ofResolvedAll, ContainerCall.given] at h
    obtain ⟨name, hmem, rfl⟩ := h
    rw [resolveAll, keys_entriesOf] at hall
    rw [performJournal, keys_entriesOf]
    exact mem_materializeAllJournal c found hall hmem
  | register | registerInstance | registerNew | contains | names | infos | size =>
    simp [ContainerCall.given] at h

/-- Who is refused a resolution is told what the last binding answered. -/
theorem performJournal_of_refused {β : Type} {c : Container β} {call : ContainerCall β}
    {e : ContainerError} (h : (c.perform call).1 = .refused e) :
    c.performJournal call = [] ∨ ∃ before key how,
      c.performJournal call = before ++ [(key, .answered how (.error e))] := by
  cases call with
  | resolve contract name =>
    cases hf : c.find? contract name with
    | none => exact .inl (resolveJournal_of_find?_eq_none hf)
    | some b =>
      rcases hres : (c.resolve contract name).1 with e' | i <;>
        simp [perform, hres, ContainerAnswer.ofResolved] at h
      obtain ⟨before, how, hjournal⟩ := resolveJournal_answers hf
      exact .inr ⟨before, _, how, by rw [performJournal, hjournal, hres, h]⟩
  | resolveAll contract =>
    rcases hall : (c.resolveAll contract).1 with e' | found <;>
      simp [perform, hall, ContainerAnswer.ofResolvedAll] at h
    rw [resolveAll, keys_entriesOf, h] at hall
    rw [performJournal, keys_entriesOf]
    exact .inr (materializeAllJournal_of_error c hall)
  | register contract name lifetime factory =>
    rcases hadd : c.register contract name lifetime factory with e' | c' <;>
      simp [perform, hadd, ContainerAnswer.ofRegistered] at h
    exact .inl (addJournal_of_error hadd)
  | registerInstance contract name made =>
    rcases hadd : c.registerInstance contract name made with e' | c' <;>
      simp [perform, hadd, ContainerAnswer.ofRegistered] at h
    exact .inl (addJournal_of_error hadd)
  | registerNew contract name body =>
    rcases hadd : c.registerNew contract name body with e' | c' <;>
      simp [perform, hadd, ContainerAnswer.ofRegistered] at h
    exact .inl (addJournal_of_error (c := (c.mint body).2) hadd)
  | contains | names | infos | size => exact .inl rfl

theorem mem_serveJournal {call : HostCall} {key : BindingKey} {i : Instance Implementation}
    (h : (key, i) ∈ call.given (c.serve call).1) :
    ∃ how, (key, .answered how (.ok i)) ∈ c.runJournal call.asked := by
  cases call with
  | ask call =>
    obtain ⟨how, hmem⟩ := mem_performJournal h
    exact ⟨how, by simpa [HostCall.asked, runJournal] using hmem⟩
  | bringUp kind sectionName sections d =>
    cases hj : sections.judge sectionName with
    | error e => simp [serve, ConnectorKind.bringUp_of_error hj, HostCall.given] at h
    | ok judged =>
      obtain ⟨name, auth⟩ := judged
      rcases hres : c.resolve kind.contract name with ⟨e | j, c'⟩
      · simp [serve, ConnectorKind.bringUp_of_refused hj hres, HostCall.given] at h
      · rcases hattach : d.attach kind.route (.served j) auth with e | d' <;>
          simp [serve, ConnectorKind.bringUp_of_resolved hj hres, hattach, Except.map,
            HostCall.given, hj] at h
        obtain ⟨rfl, rfl⟩ := h
        have hanswer : (c.resolve kind.contract name).1 = .ok i := by rw [hres]
        obtain ⟨how, hmem⟩ := mem_resolveJournal hanswer
        exact ⟨how, by simpa [HostCall.asked, hj, runJournal, performJournal] using hmem⟩

/-- **Whatever a run hands out of a binding, the binding has answered.** -/
theorem answered_of_mem_handedOut {key : BindingKey} {i : Instance Implementation}
    (calls : List HostCall) : ∀ c : Container Implementation,
      i ∈ HostCall.handedOut calls (c.serveAll calls).1 key →
      ∃ how, .answered how (.ok i) ∈ (c.runJournal (calls.flatMap HostCall.asked)).of key := by
  induction calls with
  | nil => intro c h; cases h
  | cons call rest ih =>
    intro c h
    rw [List.flatMap_cons, runJournal_append, ← serve_eq_run, Journal.of_append]
    simp only [serveAll, HostCall.handedOut, List.zip_cons_cons, List.flatMap_cons,
      List.filterMap_append, List.mem_append] at h
    -- handed out by the first call, or later
    rcases h with h | h
    · obtain ⟨⟨key', i'⟩, hmem, heq⟩ := List.mem_filterMap.1 h
      simp only [Option.ite_none_right_eq_some, Option.some.injEq] at heq
      obtain ⟨rfl, rfl⟩ := heq
      obtain ⟨how, hin⟩ := mem_serveJournal hmem
      refine ⟨how, List.mem_append_left _ (List.mem_filterMap.2 ⟨_, hin, ?_⟩)⟩
      rw [if_pos rfl]
    · obtain ⟨how, hin⟩ := ih (c.serve call).2 h
      exact ⟨how, List.mem_append_right _ hin⟩

/-! ## What waits for itself -/

theorem quiet_serve (c : Container Implementation) (call : HostCall)
    (hend : (c.serve call).1.isEndless = false) : Quiet c (c.serve call).2 := by
  cases call with
  | ask call =>
    refine quiet_perform c call fun he => ?_
    simp [serve, he, HostAnswer.isEndless] at hend
  | bringUp kind sectionName sections d =>
    simp only [serve, Prod.map_fst, Prod.map_snd, id] at hend ⊢
    cases hj : sections.judge sectionName with
    | error e =>
      rw [ConnectorKind.bringUp_of_error hj]
      exact .refl c
    | ok judged =>
      rw [snd_bringUp hj]
      refine ends_resolveWithin _ c kind.contract judged.1 fun he => ?_
      have hrefused := ConnectorKind.bringUp_of_refused (d := d) hj (Prod.ext he rfl)
      rw [hrefused] at hend
      cases hend

/-- **Nothing is left running** where nobody waits for what waits for itself. -/
theorem quiet_serveAll (calls : List HostCall) :
    ∀ c : Container Implementation, (∀ a ∈ (c.serveAll calls).1, a.isEndless = false) →
      Quiet c (c.serveAll calls).2 := by
  induction calls with
  | nil => intro c _; exact .refl c
  | cons call rest ih =>
    intro c hend
    obtain ⟨hfirst, hrest⟩ := List.forall_mem_cons.1 hend
    exact (quiet_serve c call hfirst).trans (ih (c.serve call).2 hrest)

end Container

/-! ## What a run shows of the bindings -/

/-- What a run shows of a singleton; `es` is all that has happened to it, and `given` what the host
was handed of it. -/
structure Binding.AnswersOne {β : Type} (b : Binding β) (es : List (BindingEvent β))
    (given : List (Instance β)) : Prop where
  /-- The host is always handed the one instance that the binding holds, -/
  given_same : ∀ i ∈ given, b.held? = some i
  /-- and so is every factory. -/
  same : ∀ how i, .answered how (.ok i) ∈ es → b.held? = some i
  /-- Its factory succeeds at most once, -/
  once : es.countP BindingEvent.isMade ≤ 1
  /-- and is not run any more after the first answer with an instance. -/
  never_again : es.Pairwise fun e e' => e.isGiven = true → e'.isBegan = false
  /-- A failure is reported with the reason of that run, -/
  reported : ∀ reason answer, .answered (.failed reason) answer ∈ es →
    answer = .error (.constructionFailed b.contract.name b.name reason)
  /-- and what happens next is another run. -/
  again : es.IsChain fun e e' => e.isFailed = true → e' = .began
  /-- Every run is a failure, or the one after which there is an instance, or still going on; an
  instance that the binding was registered with took no run. -/
  counted : b.runs + es.countP BindingEvent.isPreset =
    es.countP BindingEvent.isFailed + b.materialized.toNat + b.busy.toNat
  /-- An instance that the binding was registered with is held from the start, and answers all. -/
  preset : ∀ contract name i, .registered (.ofInstance contract name i) ∈ es →
    b.runs = 0 ∧ b.held? = some i ∧ ∀ how answer, .answered how answer ∈ es → answer = .ok i

/-- What a run shows of a transient binding. -/
structure Binding.AnswersAnew {β : Type} (b : Binding β) (es : List (BindingEvent β)) : Prop where
  unmaterialized : b.info.materialized = false
  /-- Its factory is run once for each answer. -/
  runs_eq : b.runs = es.countP BindingEvent.isAnswered
  reported : ∀ reason answer, .answered (.failed reason) answer ∈ es →
    answer = .error (.constructionFailed b.contract.name b.name reason)

/-- What a run of a host from the start shows of the bindings of its container. -/
structure HostCall.FollowJournal (calls : List HostCall) (answers : List HostAnswer)
    (c : Container Implementation) : Prop where
  /-- Each binding is what its own events make of it, and nothing else touches it. -/
  drives : ∀ key, Drives none ((journal calls).of key) (c.get? key)
  /-- What the host was handed of a binding, the binding has answered. -/
  given : ∀ key, ∀ i ∈ handedOut calls answers key,
    ∃ how, .answered how (.ok i) ∈ (journal calls).of key
  singleton : ∀ key b, c.get? key = some b → b.lifetime = .singleton →
    b.AnswersOne ((journal calls).of key) (handedOut calls answers key)
  transient : ∀ key b, c.get? key = some b → b.lifetime = .transient →
    b.AnswersAnew ((journal calls).of key)
  /-- No factory is left running, unless somebody waits for what waits for itself. -/
  atRest : (∀ a ∈ answers, a.isEndless = false) → ∀ key b, c.get? key = some b → b.busy = false

/-- What holds of a container in whatever way it is resolved from next. -/
structure Container.Resolves (c : Container Implementation) : Prop where
  /-- A registration of an instance is that and nothing else, and the instance is there to be had
  at once. -/
  preset : ∀ contract name i c', c.registerInstance contract name i = .ok c' →
    c'.find? contract name = some (.ofInstance contract name i) ∧
    (Binding.ofInstance contract name i).info.materialized = true ∧
    c'.resolve contract name = (.ok i, c') ∧
    c.performJournal (.registerInstance contract name i) =
      [(contract.key name, .registered (.ofInstance contract name i))]
  /-- What is held is handed out, -/
  held : ∀ contract name b made, c.find? contract name = some b → b.lifetime = .singleton →
    b.cell = some made → c.resolve contract name = (.ok made.content, c)
  /-- what is not is made by one run of the factory, -/
  attempts : ∀ contract name b, c.find? contract name = some b → b.Unheld → b.busy = false →
    c.resolve contract name = Container.conclude b (c.attempt b)
  /-- and where that fails, the failure is reported and leaves the next resolution to try. -/
  fails : ∀ contract name b reason, c.find? contract name = some b → b.lifetime = .singleton →
    b.materialized = false → b.busy = false → (c.attempt b).1 = .error (.failed reason) →
    c.Fails contract name b reason
  /-- Who is refused a resolution is told what the last binding answered. -/
  refused : ∀ call e, (c.perform call).1 = .refused e → c.performJournal call = [] ∨
    ∃ before key how, c.performJournal call = before ++ [(key, .answered how (.error e))]
  /-- A connector that is brought up passes on what its name resolves to. -/
  bringUp : ∀ (kind : ConnectorKind) sectionName (sections : ConnectorSections) d name auth e,
    sections.judge sectionName = .ok (name, auth) → (c.resolve kind.contract name).1 = .error e →
    (kind.bringUp sectionName sections c d).1 = .error (.resolution e)

namespace Binding

variable {β : Type} {b : Binding β} {es : List (BindingEvent β)} {given : List (Instance β)}

theorem isSome_held? (b : Binding β) : b.held?.isSome = b.materialized := by
  simp [held?, materialized]

theorem answersOne_of_recorded (h : b.Recorded es) (hl : b.lifetime = .singleton)
    (hdrives : Drives none es (some b)) (hgiven : ∀ i ∈ given, ∃ how, .answered how (.ok i) ∈ es) :
    b.AnswersOne es given := by
  have hone := h.singleton hl
  have hmade := hone.made
  rw [isSome_held?] at hmade
  have hbit : b.materialized.toNat ≤ 1 := Bool.toNat_le _
  refine ⟨?_, hone.same, by omega, hone.once,
    fun reason answer => h.reported (.failed reason) answer, ?_, ?_, hone.preset⟩
  · intro i hi
    obtain ⟨how, hmem⟩ := hgiven i hi
    exact hone.same how i hmem
  · -- the first event registers the binding, and is no failure
    obtain ⟨b₀, rest, rfl, -, hlabel⟩ := h.origin
    cases hdrives with
    | cons hfirst hrest =>
      cases hfirst
      simp only [row, Row.label, Prod.mk.injEq] at hlabel
      have htail := again_of_drives hrest b₀ rfl (hlabel.2.2.1.trans hl)
      cases rest with
      | nil => exact .singleton _
      | cons e rest => exact List.isChain_cons_cons.2 ⟨fun h => (by cases h), htail⟩
  · have hcounted := hone.counted
    omega

theorem answersAnew_of_recorded (h : b.Recorded es) (hl : b.lifetime = .transient)
    (hbalanced : es.countP (·.isBegan) = es.countP (·.isRun)) : b.AnswersAnew es := by
  obtain ⟨hc, -, hran⟩ := h.transient hl
  refine ⟨by simp [info, materialized, hc], ?_,
    fun reason answer => h.reported (.failed reason) answer⟩
  rw [h.runs_eq, hbalanced]
  refine List.countP_congr fun e he => ?_
  rcases e with b₀ | - | ⟨how, answer⟩
  · rfl
  · rfl
  · simp [BindingEvent.isAnswered, hran how answer he]

end Binding

theorem Container.resolves (c : Container Implementation) : c.Resolves where
  preset contract name i c' h := by
    have hadd : c.add (.ofInstance contract name i) = .ok c' := h
    have hfound : c'.find? contract name = some (.ofInstance contract name i) := by
      rw [find?, get?_add hadd]
      exact if_pos rfl
    refine ⟨hfound, rfl, resolve_of_held hfound rfl rfl, ?_⟩
    simp only [performJournal, addJournal, hadd]
    rfl
  held _ _ _ _ hf hl hc := resolve_of_held hf hl hc
  attempts _ _ _ hf hu hb := resolve_eq_conclude hf hu hb
  fails contract name b reason hf hl hm hb ha := by
    refine fails_of_attempt hf hl (fun _ => ?_) hb ha
    simpa [Binding.materialized] using hm
  refused _ _ h := performJournal_of_refused h
  bringUp kind sectionName sections d name auth e hj he := by
    rw [ConnectorKind.bringUp_of_refused hj (Prod.ext he rfl)]

/-- **Whoever asks, a binding answers for what has happened to it.** After every run of calls and
of connectors that are brought up, whatever the factories make, resolve, register or fail at: a
singleton has answered everyone with one instance, and its factory has been run until it came to
that instance and no more; a transient binding has been run once for each answer. What a factory
makes or fails with may be different on each of its runs; what it resolves and registers before that
is the same on all of them (`Factory`). -/
theorem resolutions_of_every_run (calls : List HostCall) :
    HostCall.FollowJournal calls (Container.empty.serveAll calls).1
      (Container.empty.serveAll calls).2 ∧
    (Container.empty.serveAll calls).2.Resolves := by
  have hjournaled := Container.journaled_run (calls.flatMap HostCall.asked) Container.empty
  rw [← Container.serveAll_eq_run] at hjournaled
  have hgiven : ∀ key, ∀ i ∈ HostCall.handedOut calls (Container.empty.serveAll calls).1 key,
      ∃ how, .answered how (.ok i) ∈ (HostCall.journal calls).of key := fun _ _ hi =>
    Container.answered_of_mem_handedOut calls .empty hi
  have hdrives : ∀ key, Drives none ((HostCall.journal calls).of key)
      ((Container.empty.serveAll calls).2.get? key) := hjournaled.follows
  refine ⟨⟨hdrives, hgiven, ?_, ?_, ?_⟩, Container.resolves _⟩
  · intro key b hb hl
    have hdrive := hb ▸ hdrives key
    exact Binding.answersOne_of_recorded (Binding.recorded_of_drives hdrive) hl hdrive (hgiven key)
  · intro key b hb hl
    exact Binding.answersAnew_of_recorded (Binding.recorded_of_drives (hb ▸ hdrives key)) hl
      (hjournaled.balanced key)
  · intro hend key b hb
    by_contra hbusy
    -- it would have been running before anything was registered
    obtain ⟨b₀, hb₀, -⟩ :=
      Container.quiet_serveAll calls .empty hend key b hb (by simpa using hbusy)
    cases hb₀

end ModularHost
