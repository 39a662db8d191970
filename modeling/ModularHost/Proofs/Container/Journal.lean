import ModularHost.Proofs.Container.Run
/-!
# Journals

One resolution can be many: a factory resolves other bindings and registers more of them before it
comes to anything. A journal has all of it in order, those resolutions and registrations included
that only a factory asked for: each binding that was registered, each run of a factory that began,
and each answer that a binding gave, with how it came to it.

A journal is written beside the container and never read by it. What makes it worth reading is that
it accounts for the container: each binding is, by itself, what its own events make of it
(`Follows`), a binding whose factory is running is touched by nobody else (`Stable`), and every run
that begins is answered for (`Balanced`). All three hold of one step, and so of every run of calls
(`journaled_run`).
-/


namespace ModularHost

variable {β : Type}

/-- How a binding came to an answer. -/
inductive Outcome (β : Type) where
  /-- It handed out what it held. -/
  | held
  /-- Its factory was run, and came to an instance. -/
  | made (i : Instance β)
  /-- Its factory was run, and failed. -/
  | failed (reason : String)
  /-- Its factory was run, and the run waits for itself. -/
  | stuck
  /-- Its factory was running already. -/
  | waiting

/-- What happens to a binding. -/
inductive BindingEvent (β : Type) where
  | registered (b : Binding β)
  /-- A run of the factory begins. -/
  | began
  | answered (how : Outcome β) (answer : Except ContainerError (Instance β))

/-- What happens to the bindings of a container, in order. -/
abbrev Journal (β : Type) := List (BindingKey × BindingEvent β)

/-- What a journal has of the binding of a key. -/
def Journal.of (journal : Journal β) (key : BindingKey) : List (BindingEvent β) :=
  journal.filterMap fun e => if e.1 = key then some e.2 else none

/-- How a run of a factory is answered for; `c` is the container it leaves. -/
def Outcome.ofRun (c : Container β) : Except BuildError (Product β) → Outcome β
  | .ok product => .made (c.produce product).1
  | .error (.failed reason) => .failed reason
  | .error .endless => .stuck

/-! ## Writing a journal -/

namespace Container

/-- What a way of resolving has to tell. -/
abbrev Journaling (β : Type) := Container β → Contract → String → Journal β

/-- What a container grants its factories, with a journal of it. -/
def watched (resolve : Resolver β) (journal : Journaling β) :
    Access (Container β × Journal β) β where
  resolve s contract name :=
    ((resolve s.1 contract name).1, (resolve s.1 contract name).2,
      s.2 ++ journal s.1 contract name)
  register s contract name lifetime factory :=
    (s.1.register contract name lifetime factory).map fun c =>
      (c, s.2 ++ [(contract.key name, .registered (.new contract name lifetime factory))])
  registerNew s contract name body :=
    (s.1.registerNew contract name body).map fun c =>
      (c, s.2 ++
        [(contract.key name, .registered (.ofInstance contract name (s.1.mint body).1))])

/-- A run of a binding's factory, with a journal of what it asks for. -/
def watch (resolve : Resolver β) (journal : Journaling β) (c : Container β) (b : Binding β) :
    Except BuildError (Product β) × Container β × Journal β :=
  b.factory.run (watched resolve journal) b.runs [] (c.start b.key, [])

/-- The journal of `Container.materialize`. -/
def materializeJournal (resolve : Resolver β) (journal : Journaling β) (c : Container β)
    (contract : Contract) (b : Binding β) : Journal β :=
  let answer := (c.materialize resolve contract b).1
  match b.lifetime, b.cell with
  | .singleton, some _ => [(b.key, .answered .held answer)]
  | _, _ =>
    if b.busy then [(b.key, .answered .waiting answer)]
    else
      let run := c.watch resolve journal b
      (b.key, .began) :: run.2.2 ++ [(b.key, .answered (.ofRun run.2.1 run.1) answer)]

/-- The journal of `Container.resolveWithin`. -/
def journalWithin : (depth : Nat) → Journaling β
  | 0, _, _, _ => []
  | depth + 1, c, contract, name =>
    match c.find? contract name with
    | none => []
    | some b => c.materializeJournal (resolveWithin depth) (journalWithin depth) contract b

/-- The journal of `Container.resolve`. -/
def resolveJournal (c : Container β) (contract : Contract) (name : String) : Journal β :=
  journalWithin (c.depth + 1) c contract name

/-- The journal of `Container.materializeAll`. -/
def materializeAllJournal (c : Container β) (contract : Contract) : List BindingKey → Journal β
  | [] => []
  | key :: rest =>
    match c.get? key with
    | none => c.materializeAllJournal contract rest
    | some b =>
      c.materializeJournal (resolveWithin c.depth) (journalWithin c.depth) contract b ++
        match c.materialize (resolveWithin c.depth) contract b with
        | (.error _, _) => []
        | (.ok _, c) => c.materializeAllJournal contract rest

/-- The journal of a registration: the binding, unless it is refused. -/
def addJournal (c : Container β) (b : Binding β) : Journal β :=
  match c.add b with
  | .ok _ => [(b.key, .registered b)]
  | .error _ => []

/-- The journal of a call. -/
def performJournal (c : Container β) : ContainerCall β → Journal β
  | .register contract name lifetime factory => c.addJournal (.new contract name lifetime factory)
  | .registerInstance contract name made => c.addJournal (.ofInstance contract name made)
  | .registerNew contract name body =>
    (c.mint body).2.addJournal (.ofInstance contract name (c.mint body).1)
  | .resolve contract name => c.resolveJournal contract name
  | .resolveAll contract =>
    c.materializeAllJournal contract ((c.entriesOf contract).map (·.key))
  | .contains _ _ | .names _ | .infos | .size => []

/-- The journal of a run. -/
def runJournal (c : Container β) : List (ContainerCall β) → Journal β
  | [] => []
  | call :: rest => c.performJournal call ++ (c.perform call).2.runJournal rest

end Container

/-! ## What an event does to its binding -/

/-- A binding as it is registered. -/
inductive Binding.Unused : Binding β → Prop
  | new (contract : Contract) (name : String) (lifetime : Lifetime) (factory : Factory β) :
    Unused (.new contract name lifetime factory)
  | ofInstance (contract : Contract) (name : String) (i : Instance β) :
    Unused (.ofInstance contract name i)

/-- A binding has nothing to hand out but what its factory will make. -/
def Binding.Unheld (b : Binding β) : Prop := b.lifetime = .singleton → b.cell = none

/-- A singleton's factory is running, and nothing has come of it yet. -/
def Binding.Running (b : Binding β) : Prop :=
  b.lifetime = .singleton → b.busy = true ∧ b.cell = none

/-- **What an event takes a binding to.** No other event can happen to it. -/
inductive BindingEvent.Step : Option (Binding β) → BindingEvent β → Option (Binding β) → Prop
  | registered {b : Binding β} : b.Unused → Step none (.registered b) (some b)
  /-- A singleton's factory is run only while there is nothing to hand out. -/
  | began {b : Binding β} : b.busy = false → b.Unheld → Step (some b) .began (some b.start)
  | held {b : Binding β} {made : Erased β} : b.lifetime = .singleton → b.cell = some made →
    Step (some b) (.answered .held (.ok made.content)) (some b)
  | kept {b : Binding β} {i : Instance β} : b.lifetime = .singleton → b.Running →
    Step (some b) (.answered (.made i) (.ok i)) (some (b.hold i))
  | passed {b : Binding β} {i : Instance β} : b.lifetime = .transient →
    Step (some b) (.answered (.made i) (.ok i)) (some b)
  /-- A failure is reported with its reason, and leaves nothing but the count of runs. -/
  | failed {b : Binding β} {reason : String} : b.Running →
    Step (some b)
      (.answered (.failed reason) (.error (.constructionFailed b.contract.name b.name reason)))
      (some b.release)
  | stuck {b : Binding β} : b.Running →
    Step (some b) (.answered .stuck (.error .endless)) (some b)
  | waiting {b : Binding β} : b.busy = true →
    Step (some b) (.answered .waiting (.error .endless)) (some b)

/-- What events, one after the other, take a binding to. -/
inductive Drives : Option (Binding β) → List (BindingEvent β) → Option (Binding β) → Prop
  | nil (s : Option (Binding β)) : Drives s [] s
  | cons {s t u : Option (Binding β)} {e : BindingEvent β} {es : List (BindingEvent β)} :
    e.Step s t → Drives t es u → Drives s (e :: es) u

namespace Drives

variable {s t u : Option (Binding β)} {es es' : List (BindingEvent β)}

theorem single {e : BindingEvent β} (h : e.Step s t) : Drives s [e] t := .cons h (.nil t)

theorem trans (h : Drives s es t) (h' : Drives t es' u) : Drives s (es ++ es') u := by
  induction h with
  | nil s => exact h'
  | cons hstep _ ih => exact .cons hstep (ih h')

/-- **What every event keeps, all of them keep.** The property may speak of the events so far. -/
theorem keeps {P : List (BindingEvent β) → Option (Binding β) → Prop}
    (hstep : ∀ before s e t, P before s → BindingEvent.Step s e t → P (before ++ [e]) t)
    (h : Drives s es t) : ∀ before, P before s → P (before ++ es) t := by
  induction h with
  | nil s => intro before hs; simpa using hs
  | cons hfirst _ ih =>
    intro before hs
    simpa using ih _ (hstep before _ _ _ hs hfirst)

/-- What a binding is registered as, it stays. -/
theorem label {b : Binding β} (h : Drives (some b) es t) :
    ∃ b', t = some b' ∧ b'.row.label = b.row.label := by
  refine h.keeps (P := fun _ s => ∃ b', s = some b' ∧ b'.row.label = b.row.label) ?_ []
    ⟨b, rfl, rfl⟩
  rintro before s e t ⟨b', rfl, hlabel⟩ hstep
  cases hstep <;> exact ⟨_, rfl, hlabel⟩

end Drives

/-! ## One resolution -/

namespace Container

variable {c c' c'' : Container β} {b : Binding β}

/-- What a run of a binding's factory comes to, and what of it is kept. -/
def conclude (b : Binding β) :
    Except BuildError (Product β) × Container β → Except ContainerError (Instance β) × Container β
  | (.error .endless, c) => (.error .endless, c)
  | (.error (.failed reason), c) =>
    (.error (.constructionFailed b.contract.name b.name reason), c.release b.key)
  | (.ok product, c) =>
    (.ok (c.produce product).1,
      match b.lifetime with
      | .singleton => (c.produce product).2.keep b.key (c.produce product).1
      | .transient => (c.produce product).2)

/-- A binding holds something for those who ask, or has nothing yet. -/
theorem held_or_unheld (b : Binding β) :
    (b.lifetime = .singleton ∧ ∃ made, b.cell = some made) ∨ b.Unheld := by
  cases hc : b.cell with
  | none => exact .inr fun _ => hc
  | some made =>
    cases hl : b.lifetime with
    | singleton => exact .inl ⟨rfl, made, rfl⟩
    | transient => exact .inr fun h => by rw [hl] at h; cases h

variable (resolve : Resolver β) (journal : Journaling β) (contract : Contract)

/-- A binding that holds something hands it out, and that is all. -/
theorem materialize_of_held {contract : Contract} {made : Erased β}
    (hs : b.contract.same contract = true) (hl : b.lifetime = .singleton)
    (hc : b.cell = some made) :
    c.materialize resolve contract b = (.ok made.content, c) ∧
    c.materializeJournal resolve journal contract b =
      [(b.key, .answered .held (.ok made.content))] := by
  have hout : c.materialize resolve contract b = (.ok made.content, c) := by
    unfold materialize
    simp only [hl, hc, Binding.handOut_eq_ok hs (b.cell_type made hc)]
  refine ⟨hout, ?_⟩
  simp only [materializeJournal, hout, hl, hc]

/-- Whoever asks a binding whose factory is running waits for it. -/
theorem materialize_of_busy (hu : b.Unheld) (hb : b.busy = true) :
    c.materialize resolve contract b = (.error .endless, c) ∧
    c.materializeJournal resolve journal contract b =
      [(b.key, .answered .waiting (.error .endless))] := by
  have hout : c.materialize resolve contract b = (.error .endless, c) := by
    unfold materialize
    split
    · rename_i hl hc
      rw [hu hl] at hc
      cases hc
    · rw [if_pos hb]
  refine ⟨hout, ?_⟩
  unfold materializeJournal
  rw [hout]
  split
  · rename_i hl hc
    rw [hu hl] at hc
    cases hc
  · rw [if_pos hb]

/-- **Any other binding runs its factory**, once, and answers for that run. -/
theorem materialize_eq_conclude {contract : Contract} (hs : b.contract.same contract = true)
    (hu : b.Unheld) (hb : b.busy = false) :
    c.materialize resolve contract b =
      conclude b (b.factory.run (access resolve) b.runs [] (c.start b.key)) := by
  have hout : ∀ i, b.handOut contract (b.erase i) = .ok i := fun i =>
    Binding.handOut_eq_ok hs rfl
  unfold materialize
  split
  · rename_i hl hc
    rw [hu hl] at hc
    cases hc
  · rw [if_neg (by simp [hb])]
    unfold construct conclude
    rcases b.factory.run (access resolve) b.runs [] (c.start b.key)
      with ⟨(reason | -) | product, c'⟩
    · rfl
    · rfl
    · cases b.lifetime <;> simp [Except.bind, hout]

theorem materializeJournal_of_run (hu : b.Unheld) (hb : b.busy = false) :
    c.materializeJournal resolve journal contract b =
      (b.key, .began) :: (c.watch resolve journal b).2.2 ++
        [(b.key, .answered (.ofRun (c.watch resolve journal b).2.1 (c.watch resolve journal b).1)
          (c.materialize resolve contract b).1)] := by
  unfold materializeJournal
  split
  · rename_i hl hc
    rw [hu hl] at hc
    cases hc
  · rw [if_neg (by simp [hb])]

end Container

/-! ## Journals that account for a container -/

namespace Outcome

/-- Whether the factory was run for an answer. -/
def ran : Outcome β → Bool
  | .made _ | .failed _ | .stuck => true
  | .held | .waiting => false

end Outcome

namespace BindingEvent

def isBegan : BindingEvent β → Bool
  | .began => true
  | _ => false

/-- Whether a run of the factory is answered for. -/
def isRun : BindingEvent β → Bool
  | .answered how _ => how.ran
  | _ => false

@[simp] theorem isBegan_registered (b : Binding β) : (registered b).isBegan = false := rfl

@[simp] theorem isBegan_began : (began : BindingEvent β).isBegan = true := rfl

@[simp] theorem isBegan_answered (how : Outcome β) (answer : Except ContainerError (Instance β)) :
    (answered how answer).isBegan = false := rfl

@[simp] theorem isRun_registered (b : Binding β) : (registered b).isRun = false := rfl

@[simp] theorem isRun_began : (began : BindingEvent β).isRun = false := rfl

@[simp] theorem isRun_answered (how : Outcome β) (answer : Except ContainerError (Instance β)) :
    (answered how answer).isRun = how.ran := rfl

end BindingEvent

namespace Journal

variable {j j' : Journal β} {key key' : BindingKey} {e : BindingEvent β}

@[simp] theorem of_nil : of ([] : Journal β) key = [] := rfl

@[simp] theorem of_append : (j ++ j').of key = j.of key ++ j'.of key :=
  List.filterMap_append

@[simp] theorem of_cons :
    of ((key', e) :: j) key = if key' = key then e :: j.of key else j.of key := by
  by_cases h : key' = key <;> simp [of, h]

/-- Of each binding, as many runs are answered for as have begun. -/
def Balanced (j : Journal β) : Prop :=
  ∀ key, (j.of key).countP (·.isBegan) = (j.of key).countP (·.isRun)

theorem Balanced.append (h : j.Balanced) (h' : j'.Balanced) : (j ++ j').Balanced := by
  intro key
  rw [of_append, List.countP_append, List.countP_append, h key, h' key]

end Journal

namespace Container

variable {c c' c'' : Container β} {b : Binding β} {j j' : Journal β}

/-- Every binding is what its own events make of it. -/
def Follows (c : Container β) (j : Journal β) (c' : Container β) : Prop :=
  ∀ key, Drives (c.get? key) (j.of key) (c'.get? key)

theorem Follows.trans (h : Follows c j c') (h' : Follows c' j' c'') : Follows c (j ++ j') c'' := by
  intro key
  rw [Journal.of_append]
  exact (h key).trans (h' key)

/-- One event follows from what it does to its binding, if the others are left alone. -/
theorem Follows.single {key : BindingKey} {e : BindingEvent β}
    (hstep : e.Step (c.get? key) (c'.get? key))
    (hother : ∀ key', key' ≠ key → c'.get? key' = c.get? key') : Follows c [(key, e)] c' := by
  intro key'
  by_cases hk : key = key'
  · subst hk
    simpa using Drives.single hstep
  · rw [hother key' (Ne.symm hk)]
    simpa [hk] using Drives.nil _

/-- A binding whose factory is running is touched by nobody else. -/
def Stable (c c' : Container β) : Prop :=
  ∀ key b, c.get? key = some b → b.busy = true → c'.get? key = some b

/-- A journal that accounts for all that has become of a container. -/
structure Journaled (c : Container β) (j : Journal β) (c' : Container β) : Prop where
  follows : Follows c j c'
  stable : Stable c c'
  balanced : j.Balanced

namespace Journaled

theorem refl (c : Container β) : Journaled c [] c where
  follows := fun _ => .nil _
  stable := fun _ _ h _ => h
  balanced := fun _ => rfl

theorem trans (h : Journaled c j c') (h' : Journaled c' j' c'') : Journaled c (j ++ j') c'' where
  follows := h.follows.trans h'.follows
  stable key b hb hbusy := h'.stable key b (h.stable key b hb hbusy) hbusy
  balanced := h.balanced.append h'.balanced

/-- A binding that is there stays there, registered as it was. -/
theorem get? (h : Journaled c j c') {key : BindingKey} {b : Binding β} (hb : c.get? key = some b) :
    ∃ b', c'.get? key = some b' ∧ b'.lifetime = b.lifetime ∧ b'.factory = b.factory := by
  obtain ⟨b', hb', hlabel⟩ := (hb ▸ h.follows key).label
  simp only [Binding.row, Row.label, Prod.mk.injEq] at hlabel
  obtain ⟨-, -, hlife, hfactory⟩ := hlabel
  exact ⟨b', hb', hlife, hfactory⟩

end Journaled

/-- **A registration is one event**, of a binding that was not there. -/
theorem journaled_add (h : c.add b = .ok c') (hu : b.Unused) :
    Journaled c [(b.key, .registered b)] c' := by
  refine ⟨?_, ?_, ?_⟩
  · refine Follows.single ?_ fun key' hk => by rw [get?_add h, if_neg hk]
    rw [get?_of_add h, get?_add h, if_pos rfl]
    exact .registered hu
  · intro key b' hb' _
    rw [get?_add h]
    split
    · rename_i hk
      rw [hk, get?_of_add h] at hb'
      cases hb'
    · exact hb'
  · intro key
    by_cases hk : b.key = key <;> simp [hk]

theorem journaled_registerNew {contract : Contract} {name : String} {body : β}
    (h : c.registerNew contract name body = .ok c') :
    Journaled c [(contract.key name, .registered (.ofInstance contract name (c.mint body).1))]
      c' := by
  -- making the instance is nothing that happens to a binding
  have hadd := journaled_add (c := (c.mint body).2) h (.ofInstance contract name (c.mint body).1)
  exact ⟨hadd.follows, hadd.stable, hadd.balanced⟩

/-- A registration that is refused is no event. -/
theorem addJournal_of_error {e : ContainerError} (h : c.add b = .error e) :
    c.addJournal b = [] := by
  simp [addJournal, h]

/-- What a registration comes to is in its journal. -/
theorem journaled_addJournal (c : Container β) (hu : b.Unused) :
    Journaled c (c.addJournal b)
      (ContainerAnswer.ofRegistered c (c.add b) : ContainerAnswer β × Container β).2 := by
  unfold addJournal
  cases h : c.add b with
  | error e => exact .refl c
  | ok c' => exact journaled_add h hu

/-! ## A run of a factory -/

/-- A way of resolving whose journal accounts for what it does. -/
def Tells (resolve : Resolver β) (journal : Journaling β) : Prop :=
  ∀ c contract name, Journaled c (journal c contract name) (resolve c contract name).2

variable {resolve : Resolver β} {journal : Journaling β}

/-- Writing a journal changes nothing for the factory that is watched. -/
theorem watched_refines (resolve : Resolver β) (journal : Journaling β) :
    (watched resolve journal).Refines (access resolve) Prod.fst where
  resolve _ _ _ := rfl
  register s contract name lifetime factory := by
    simp only [access, watched]
    cases s.1.register contract name lifetime factory <;> rfl
  registerNew s contract name body := by
    simp only [access, watched]
    cases s.1.registerNew contract name body <;> rfl

theorem run_eq_watch (resolve : Resolver β) (journal : Journaling β) (c : Container β)
    (b : Binding β) :
    b.factory.run (access resolve) b.runs [] (c.start b.key) =
      ((c.watch resolve journal b).1, (c.watch resolve journal b).2.1) :=
  Factory.run_refines (watched_refines resolve journal) b.runs b.factory [] (c.start b.key, [])

/-- The journal grows by what accounts for the change of the container. -/
def Accounted (s t : Container β × Journal β) : Prop :=
  ∃ j, t.2 = s.2 ++ j ∧ Journaled s.1 j t.1

theorem preserves_watched (h : Tells resolve journal) :
    (watched resolve journal).Preserves Accounted where
  refl s := ⟨[], by simp, .refl s.1⟩
  trans := by
    rintro s t u ⟨j, hj, hst⟩ ⟨j', hj', htu⟩
    exact ⟨j ++ j', by rw [hj', hj, List.append_assoc], hst.trans htu⟩
  resolve s contract name := ⟨journal s.1 contract name, rfl, h s.1 contract name⟩
  register := by
    intro s t contract name lifetime factory hreg
    simp only [watched] at hreg
    rcases hok : s.1.register contract name lifetime factory with e | c' <;> rw [hok] at hreg
    · cases hreg
    · cases hreg
      exact ⟨_, rfl, journaled_add hok (.new contract name lifetime factory)⟩
  registerNew := by
    intro s t contract name body hreg
    simp only [watched] at hreg
    rcases hok : s.1.registerNew contract name body with e | c' <;> rw [hok] at hreg
    · cases hreg
    · cases hreg
      exact ⟨_, rfl, journaled_registerNew hok⟩

/-- **A factory accounts for all it asks for**, however its run ends. -/
theorem journaled_watch (h : Tells resolve journal) (c : Container β) (b : Binding β) :
    Journaled (c.start b.key) (c.watch resolve journal b).2.2 (c.watch resolve journal b).2.1 := by
  obtain ⟨j, hj, hjournal⟩ :=
    b.factory.run_preserves (preserves_watched h) b.runs [] (c.start b.key, [])
  rw [List.nil_append] at hj
  rw [watch, hj]
  exact hjournal

/-! ## The run of a binding's factory, from its beginning to its answer -/

theorem get?_produce (c : Container β) (product : Product β) (key : BindingKey) :
    (c.produce product).2.get? key = c.get? key := by
  cases product <;> rfl

/-- The end of a run is one event of the binding. -/
theorem follows_conclude {b b' : Binding β} {c : Container β}
    {made : Except BuildError (Product β)} (hget : c.get? b.key = some b')
    (hlabel : b'.row.label = b.row.label) (hrunning : b'.Running) :
    Follows c [(b.key, .answered (.ofRun c made) (conclude b (made, c)).1)]
      (conclude b (made, c)).2 := by
  simp only [Binding.row, Row.label, Prod.mk.injEq] at hlabel
  obtain ⟨hcontract, hname, hlife, -⟩ := hlabel
  rcases made with (reason | -) | product
  · refine Follows.single ?_ fun key hk => by simp [conclude, release, get?_update, hk]
    simp only [conclude, Outcome.ofRun, release, get?_update, hget, if_true, Option.map_some]
    rw [← hcontract, ← hname]
    exact .failed hrunning
  · refine Follows.single ?_ fun key hk => by simp [conclude]
    simp only [conclude, Outcome.ofRun, hget]
    exact .stuck hrunning
  · cases hl : b.lifetime with
    | singleton =>
      refine Follows.single ?_ fun key hk => by
        simp [conclude, hl, keep, get?_update, get?_produce, hk]
      simp only [conclude, hl, Outcome.ofRun, keep, get?_update, get?_produce, hget, if_true,
        Option.map_some]
      exact .kept (hlife.trans hl) hrunning
    | transient =>
      refine Follows.single ?_ fun key hk => by simp [conclude, hl, get?_produce]
      simp only [conclude, hl, Outcome.ofRun, get?_produce, hget]
      exact .passed (hlife.trans hl)

theorem get?_conclude_of_ne {b : Binding β} {key : BindingKey} (hk : key ≠ b.key)
    (made : Except BuildError (Product β)) (c : Container β) :
    (conclude b (made, c)).2.get? key = c.get? key := by
  rcases made with (reason | -) | product
  · simp [conclude, release, get?_update, hk]
  · rfl
  · cases hl : b.lifetime <;> simp [conclude, hl, keep, get?_update, get?_produce, hk]

/-- A run of a binding's factory accounts for all it does: for its beginning, for what the factory
asks for, and for its end. -/
theorem journaled_conclude (h : Tells resolve journal) (hget : c.get? b.key = some b)
    (hu : b.Unheld) (hb : b.busy = false) :
    Journaled c
      ((b.key, .began) :: (c.watch resolve journal b).2.2 ++
        [(b.key, .answered (.ofRun (c.watch resolve journal b).2.1 (c.watch resolve journal b).1)
          (conclude b ((c.watch resolve journal b).1, (c.watch resolve journal b).2.1)).1)])
      (conclude b ((c.watch resolve journal b).1, (c.watch resolve journal b).2.1)).2 := by
  have hrun := journaled_watch h c b
  generalize c.watch resolve journal b = run at hrun ⊢
  obtain ⟨made, c₁, during⟩ := run
  simp only at hrun ⊢
  have hstart : ∀ key, (c.start b.key).get? key
      = if key = b.key then some b.start else c.get? key := by
    intro key
    rw [start, get?_update]
    by_cases hk : key = b.key
    · rw [if_pos hk, if_pos hk, hk, hget, Option.map_some]
    · rw [if_neg hk, if_neg hk]
  have hstarted : (c.start b.key).get? b.key = some b.start := by rw [hstart, if_pos rfl]
  have hbegan : Follows c [(b.key, .began)] (c.start b.key) := by
    refine Follows.single ?_ fun key hk => by rw [hstart, if_neg hk]
    rw [hstarted, hget]
    exact .began hb hu
  obtain ⟨b', hget', hlabel⟩ := (hstarted ▸ hrun.follows b.key).label
  -- a singleton is found as the run of its factory began, since nobody touches it
  have hrunning : b'.Running := by
    simp only [Binding.row, Row.label, Prod.mk.injEq] at hlabel
    intro hl
    have hl' : b.lifetime = .singleton := hlabel.2.2.1.symm.trans hl
    have hbusy : b.start.busy = true := by simp [Binding.start, hl']
    have hsame := hrun.stable b.key b.start hstarted hbusy
    rw [hget'] at hsame
    cases hsame
    exact ⟨hbusy, hu hl'⟩
  refine ⟨?_, ?_, ?_⟩
  · exact (hbegan.trans hrun.follows).trans (follows_conclude hget' hlabel hrunning)
  · intro key b'' hb'' hbusy''
    have hk : key ≠ b.key := by
      rintro rfl
      rw [hget] at hb''
      cases hb''
      rw [hb] at hbusy''
      cases hbusy''
    rw [get?_conclude_of_ne hk]
    exact hrun.stable key b'' (by rw [hstart, if_neg hk]; exact hb'') hbusy''
  · intro key
    have hd := hrun.balanced key
    have hran : (Outcome.ofRun c₁ made).ran = true := by
      rcases made with (reason | -) | product <;> rfl
    by_cases hk : b.key = key <;> simp [hk, hd, hran, List.countP_cons]

/-- An answer for which no factory is run accounts for a resolution that changes nothing. -/
theorem journaled_answer {how : Outcome β} {answer : Except ContainerError (Instance β)}
    (hget : c.get? b.key = some b) (hran : how.ran = false)
    (hstep : (BindingEvent.answered how answer).Step (some b) (some b)) :
    Journaled c [(b.key, .answered how answer)] c where
  follows := Follows.single (hget ▸ hstep) fun _ _ => rfl
  stable := fun _ _ hb _ => hb
  balanced := fun key => by by_cases hk : b.key = key <;> simp [hk, hran]

/-- **A resolution of a binding accounts for all it does**, from the run of the binding's own
factory down to the last resolution behind it. -/
theorem journaled_materialize (h : Tells resolve journal) {contract : Contract}
    (hs : b.contract.same contract = true) (hget : c.get? b.key = some b) :
    Journaled c (c.materializeJournal resolve journal contract b)
      (c.materialize resolve contract b).2 := by
  rcases held_or_unheld b with ⟨hl, made, hc⟩ | hu
  · obtain ⟨hout, hjournal⟩ := materialize_of_held resolve journal hs hl hc
    rw [hout, hjournal]
    exact journaled_answer hget rfl (.held hl hc)
  · cases hb : b.busy with
    | true =>
      obtain ⟨hout, hjournal⟩ := materialize_of_busy resolve journal contract hu hb
      rw [hout, hjournal]
      exact journaled_answer hget rfl (.waiting hb)
    | false =>
      rw [materializeJournal_of_run resolve journal contract hu hb,
        materialize_eq_conclude resolve hs hu hb, run_eq_watch resolve journal]
      exact journaled_conclude h hget hu hb

theorem tells_resolveWithin (depth : Nat) :
    Tells (resolveWithin (β := β) depth) (journalWithin depth) := by
  induction depth with
  | zero => intro c contract name; exact .refl c
  | succ depth ih =>
    intro c contract name
    unfold journalWithin resolveWithin
    cases hf : c.find? contract name with
    | none => exact .refl c
    | some b =>
      have hkey : b.key = contract.key name := key_of_get?_eq_some hf
      exact journaled_materialize ih (same_of_find?_eq_some hf).1 (hkey ▸ hf)

/-- **A resolution accounts for all it does.** -/
theorem journaled_resolve (c : Container β) (contract : Contract) (name : String) :
    Journaled c (c.resolveJournal contract name) (c.resolve contract name).2 :=
  tells_resolveWithin _ c contract name

/-! ## Runs of calls -/

/-- **What the resolution of some bindings begins with**: a key under which there is none is passed
over, and the first binding that refuses is the end of it. -/
theorem materializeAll_cases (c : Container β) (contract : Contract) (key : BindingKey)
    (rest : List BindingKey) :
    (c.get? key = none ∧ c.materializeAll contract (key :: rest) = c.materializeAll contract rest ∧
      c.materializeAllJournal contract (key :: rest) = c.materializeAllJournal contract rest) ∨
    (∃ b e, c.get? key = some b ∧
      (c.materialize (resolveWithin c.depth) contract b).1 = .error e ∧
      c.materializeAll contract (key :: rest) =
        (.error e, (c.materialize (resolveWithin c.depth) contract b).2) ∧
      c.materializeAllJournal contract (key :: rest) =
        c.materializeJournal (resolveWithin c.depth) (journalWithin c.depth) contract b) ∨
    ∃ b i c', c.get? key = some b ∧
      c.materialize (resolveWithin c.depth) contract b = (.ok i, c') ∧
      c.materializeAll contract (key :: rest) =
        ((c'.materializeAll contract rest).1.map ((b.name, i) :: ·),
          (c'.materializeAll contract rest).2) ∧
      c.materializeAllJournal contract (key :: rest) =
        c.materializeJournal (resolveWithin c.depth) (journalWithin c.depth) contract b ++
          c'.materializeAllJournal contract rest := by
  simp only [materializeAll, materializeAllJournal]
  cases hf : c.get? key with
  | none => exact .inl ⟨rfl, rfl, rfl⟩
  | some b =>
    rcases hres : c.materialize (resolveWithin c.depth) contract b with ⟨e | i, c'⟩
    · exact .inr (.inl ⟨b, e, rfl, by rw [hres], by simp only [hres], by simp [hres]⟩)
    · refine .inr (.inr ⟨b, i, c', rfl, hres, ?_, by simp only [hres]⟩)
      simp only [hres]
      rcases c'.materializeAll contract rest with ⟨e | found, c''⟩ <;> rfl

theorem journaled_materializeAll (contract : Contract) (names : List String) :
    ∀ c : Container β,
      Journaled c (c.materializeAllJournal contract (names.map contract.key))
        (c.materializeAll contract (names.map contract.key)).2 := by
  induction names with
  | nil => intro c; exact .refl c
  | cons name rest ih =>
    intro c
    have hstep : ∀ b, c.get? (contract.key name) = some b →
        Journaled c
          (c.materializeJournal (resolveWithin c.depth) (journalWithin c.depth) contract b)
          (c.materialize (resolveWithin c.depth) contract b).2 := fun b hf =>
      journaled_materialize (tells_resolveWithin c.depth) (same_of_find?_eq_some hf).1
        ((key_of_get?_eq_some hf).symm ▸ hf)
    rw [List.map_cons]
    rcases materializeAll_cases c contract (contract.key name) (rest.map contract.key) with
      ⟨-, hall, hjournal⟩ | ⟨b, e, hf, -, hall, hjournal⟩ | ⟨b, i, c', hf, hres, hall, hjournal⟩ <;>
      rw [hall, hjournal]
    · exact ih c
    · exact hstep b hf
    · have hfirst := hstep b hf
      rw [hres] at hfirst
      exact hfirst.trans (ih c')

/-- One call accounts for all it does. -/
theorem journaled_perform (c : Container β) (call : ContainerCall β) :
    Journaled c (c.performJournal call) (c.perform call).2 := by
  cases call with
  | register contract name lifetime factory =>
    exact journaled_addJournal c (.new contract name lifetime factory)
  | registerInstance contract name made =>
    exact journaled_addJournal c (.ofInstance contract name made)
  | registerNew contract name body =>
    simp only [performJournal, addJournal, perform]
    rcases hres : c.registerNew contract name body with e | c'
    · have hadd : (c.mint body).2.add (.ofInstance contract name (c.mint body).1) = .error e := hres
      rw [hadd]
      exact .refl c
    · have hadd : (c.mint body).2.add (.ofInstance contract name (c.mint body).1) = .ok c' := hres
      rw [hadd]
      exact journaled_registerNew hres
  | resolve contract name => exact journaled_resolve c contract name
  | resolveAll contract =>
    simp only [performJournal, perform, resolveAll, keys_entriesOf]
    exact journaled_materializeAll contract _ c
  | contains | names | infos | size => exact .refl c

theorem runJournal_append (earlier later : List (ContainerCall β)) :
    ∀ c : Container β, c.runJournal (earlier ++ later) =
      c.runJournal earlier ++ (c.run earlier).2.runJournal later := by
  induction earlier with
  | nil => intro c; rfl
  | cons call rest ih =>
    intro c
    rw [List.cons_append, runJournal, runJournal, ih, List.append_assoc]
    rfl

/-- **A run of calls accounts for all it does.** -/
theorem journaled_run (calls : List (ContainerCall β)) :
    ∀ c : Container β, Journaled c (c.runJournal calls) (c.run calls).2 := by
  induction calls with
  | nil => intro c; exact .refl c
  | cons call rest ih =>
    intro c
    exact (journaled_perform c call).trans (ih (c.perform call).2)

end Container

end ModularHost
