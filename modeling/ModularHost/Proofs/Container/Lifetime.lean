import ModularHost.Proofs.Container.Journal
/-!
# How often a factory runs

What has happened to a binding is told by its events alone, and each event says what it does to the
binding. So everything about the runs of a factory is proved once for one event, and holds of every
binding after any run of calls, however the calls, the failures and the factories' own resolutions
are mixed (`Binding.recorded_of_drives`).

A singleton's factory is run until it comes to an instance, and never again: every answer with an
instance is that instance, and every run is a failure, the one success, or still going on
(`Binding.MadeOnce`). Between a failure and the next answer there is always another run
(`Binding.again_of_drives`). A transient binding is run for each of its answers.

A factory is still running after a call only when the call waits for itself
(`Container.quiet_perform`).
-/


namespace ModularHost

variable {β : Type}

/-- The instance a binding holds. -/
def Binding.held? (b : Binding β) : Option (Instance β) := b.cell.map (·.content)

namespace BindingEvent

/-- The binding was registered, and held something from the start. -/
def isPreset : BindingEvent β → Bool
  | .registered b => b.held?.isSome
  | _ => false

/-- A run of the factory came to an instance. -/
def isMade : BindingEvent β → Bool
  | .answered (.made _) _ => true
  | _ => false

/-- A run of the factory failed. -/
def isFailed : BindingEvent β → Bool
  | .answered (.failed _) _ => true
  | _ => false

/-- An instance was handed out. -/
def isGiven : BindingEvent β → Bool
  | .answered _ (.ok _) => true
  | _ => false

def isAnswered : BindingEvent β → Bool
  | .answered _ _ => true
  | _ => false

end BindingEvent

open BindingEvent

/-- What a binding answers where it comes to an answer in some way. -/
def Outcome.Reports (how : Outcome β) (b : Binding β)
    (answer : Except ContainerError (Instance β)) : Prop :=
  match how with
  | .held => ∃ i, answer = .ok i
  | .made i => answer = .ok i
  | .failed reason => answer = .error (.constructionFailed b.contract.name b.name reason)
  | .stuck | .waiting => answer = .error .endless

/-- What has happened to a singleton by the time it is what it is. -/
structure Binding.MadeOnce (b : Binding β) (es : List (BindingEvent β)) : Prop where
  /-- Whatever it handed out is what it holds. -/
  same : ∀ how i, .answered how (.ok i) ∈ es → b.held? = some i
  idle : b.held?.isSome → b.busy = false
  /-- Every run of its factory failed, came to an instance, or goes on. -/
  counted : b.runs = es.countP isFailed + es.countP isMade + b.busy.toNat
  /-- It holds what it was registered with, or what one run came to. -/
  made : es.countP isPreset + es.countP isMade = b.held?.isSome.toNat
  /-- No run begins once it has handed something out. -/
  once : es.Pairwise fun e e' => e.isGiven = true → e'.isBegan = false
  /-- An instance it was registered with is its answer to everyone, and its factory is not run. -/
  preset : ∀ contract name i, .registered (.ofInstance contract name i) ∈ es →
    b.runs = 0 ∧ b.held? = some i ∧ ∀ how answer, .answered how answer ∈ es → answer = .ok i

/-- What has happened to a binding by the time it is what it is. -/
structure Binding.Recorded (b : Binding β) (es : List (BindingEvent β)) : Prop where
  /-- It was registered first of all, and as what it still is. -/
  origin : ∃ b₀ rest, es = .registered b₀ :: rest ∧ b₀.Unused ∧ b₀.row.label = b.row.label
  runs_eq : b.runs = es.countP isBegan
  reported : ∀ how answer, .answered how answer ∈ es → how.Reports b answer
  singleton : b.lifetime = .singleton → b.MadeOnce es
  transient : b.lifetime = .transient →
    b.cell = none ∧ b.busy = false ∧ ∀ how answer, .answered how answer ∈ es → how.ran = true

namespace Binding

variable {b b' : Binding β} {es : List (BindingEvent β)} {e : BindingEvent β}

theorem held?_start (b : Binding β) : b.start.held? = b.held? := rfl

theorem held?_release (b : Binding β) : b.release.held? = b.held? := rfl

theorem held?_eq_none_iff : b.held? = none ↔ b.cell = none := Option.map_eq_none_iff

namespace MadeOnce

theorem registered (h : b.Unused) : b.MadeOnce [.registered b] := by
  cases h with
  | new contract name lifetime factory =>
    refine ⟨by simp, by simp [Binding.new], rfl, rfl, List.pairwise_singleton _ _, ?_⟩
    intro contract' name' i h
    simp [Binding.new, ofInstance, hold] at h
  | ofInstance contract name i =>
    refine ⟨by simp, fun _ => rfl, rfl, rfl, List.pairwise_singleton _ _, ?_⟩
    intro contract' name' i' h
    have hb : ofInstance contract' name' i' = ofInstance contract name i := by simpa using h
    have hi : (ofInstance contract' name' i').held? = (ofInstance contract name i).held? := by
      rw [hb]
    exact ⟨rfl, hi.symm, by simp⟩

/-- What has been handed out is held, so nothing has been while nothing is held. -/
theorem not_given (h : b.MadeOnce es) (hc : b.held? = none) : ∀ e ∈ es, e.isGiven = false := by
  intro e he
  rcases e with b₀ | - | ⟨how, error | i⟩
  · rfl
  · rfl
  · rfl
  · have hsome := h.same how i he
    rw [hc] at hsome
    cases hsome

/-- Nothing was there from the start where nothing is held. -/
theorem not_preset (h : b.MadeOnce es) (hc : b.held? = none) (contract : Contract) (name : String)
    (i : Instance β) : .registered (.ofInstance contract name i) ∉ es := by
  intro hmem
  have hsome := (h.preset contract name i hmem).2.1
  rw [hc] at hsome
  cases hsome

/-- What no run begins with can follow anything. -/
theorem once_append (h : b.MadeOnce es) (he : e.isBegan = false) :
    (es ++ [e]).Pairwise fun e e' => e.isGiven = true → e'.isBegan = false := by
  refine List.pairwise_append.2 ⟨h.once, List.pairwise_singleton _ _, fun _ _ e' he' _ => ?_⟩
  rw [List.mem_singleton.1 he']
  exact he

/-- An answer where nothing is held before it. -/
theorem answered (h : b.MadeOnce es) (hc : b.held? = none) {how : Outcome β}
    {answer : Except ContainerError (Instance β)}
    (hgiven : ∀ i, answer = .ok i → b'.held? = some i)
    (hidle : b'.held?.isSome → b'.busy = false) (hruns : b'.runs = b.runs)
    (hcounted : [BindingEvent.answered how answer].countP isFailed
      + [BindingEvent.answered how answer].countP isMade + b'.busy.toNat = b.busy.toNat)
    (hmade : [BindingEvent.answered how answer].countP isMade = b'.held?.isSome.toNat) :
    b'.MadeOnce (es ++ [.answered how answer]) where
  same how' i hmem := by
    rcases List.mem_append.1 hmem with hmem | hmem
    · have hsome := h.same how' i hmem
      rw [hc] at hsome
      cases hsome
    · simp only [List.mem_singleton, BindingEvent.answered.injEq] at hmem
      exact hgiven i hmem.2.symm
  idle := hidle
  counted := by
    have hbefore := h.counted
    rw [List.countP_append, List.countP_append]
    omega
  made := by
    have hbefore := h.made
    have hpreset : [BindingEvent.answered how answer].countP isPreset = 0 := rfl
    simp only [hc, Option.isSome_none, Bool.toNat_false] at hbefore
    rw [List.countP_append, List.countP_append]
    omega
  once := h.once_append rfl
  preset contract name i hmem := absurd (by simpa using hmem) (h.not_preset hc contract name i)

/-- Handing out what is held. -/
theorem given (h : b.MadeOnce es) {i : Instance β} (hc : b.held? = some i) :
    b.MadeOnce (es ++ [.answered .held (.ok i)]) where
  same how j hmem := by
    rcases List.mem_append.1 hmem with hmem | hmem
    · exact h.same how j hmem
    · simp only [List.mem_singleton, BindingEvent.answered.injEq, Except.ok.injEq] at hmem
      rw [hc, hmem.2]
  idle := h.idle
  counted := by simpa [isFailed, isMade] using h.counted
  made := by simpa [isPreset, isMade] using h.made
  once := h.once_append rfl
  preset contract name j hmem := by
    obtain ⟨hruns, hheld, hanswers⟩ := h.preset contract name j (by simpa using hmem)
    refine ⟨hruns, hheld, fun how answer hmem => ?_⟩
    rcases List.mem_append.1 hmem with hmem | hmem
    · exact hanswers how answer hmem
    · simp only [List.mem_singleton, BindingEvent.answered.injEq] at hmem
      rw [hc, Option.some.injEq] at hheld
      rw [hmem.2, hheld]

/-- A run begins only where nothing is held. -/
theorem began (h : b.MadeOnce es) (hl : b.lifetime = .singleton) (hb : b.busy = false)
    (hc : b.held? = none) : b.start.MadeOnce (es ++ [.began]) where
  same how i hmem := h.same how i (by simpa using hmem)
  idle hsome := by rw [held?_start, hc] at hsome; cases hsome
  counted := by
    have hbefore := h.counted
    simp [start, hl, hb, isFailed, isMade] at hbefore ⊢
    omega
  made := by simpa [held?_start, isPreset, isMade] using h.made
  once := by
    refine List.pairwise_append.2 ⟨h.once, List.pairwise_singleton _ _, fun e he _ _ hg => ?_⟩
    rw [h.not_given hc e he] at hg
    cases hg
  preset contract name i hmem := absurd (by simpa using hmem) (h.not_preset hc contract name i)

/-- **One event keeps the record of a singleton.** -/
theorem step (h : b.MadeOnce es) (hl : b.lifetime = .singleton)
    (hstep : e.Step (some b) (some b')) : b'.MadeOnce (es ++ [e]) := by
  cases hstep with
  | began hb hu => exact h.began hl hb (held?_eq_none_iff.2 (hu hl))
  | held _ hc => exact h.given (by simp [held?, hc])
  | kept _ hr =>
    refine h.answered (held?_eq_none_iff.2 (hr hl).2) (fun i hi => ?_) (fun _ => rfl) rfl ?_ rfl
    · cases hi
      rfl
    · simp [isFailed, isMade, hold, (hr hl).1]
  | passed ht =>
    rw [hl] at ht
    cases ht
  | failed hr =>
    have hc : b.held? = none := held?_eq_none_iff.2 (hr hl).2
    refine h.answered hc (fun i hi => by cases hi) (by simp [held?_release, hc]) rfl ?_ ?_
    · simp [isFailed, isMade, release, (hr hl).1]
    · simp [isMade, held?_release, hc]
  | stuck hr =>
    have hc : b.held? = none := held?_eq_none_iff.2 (hr hl).2
    refine h.answered hc (fun i hi => by cases hi) (by simp [hc]) rfl ?_ ?_
    · simp [isFailed, isMade]
    · simp [isMade, hc]
  | waiting hb =>
    have hc : b.held? = none := by
      by_contra hsome
      rw [h.idle (Option.isSome_iff_ne_none.2 hsome)] at hb
      cases hb
    refine h.answered hc (fun i hi => by cases hi) (by simp [hc]) rfl ?_ ?_
    · simp [isFailed, isMade]
    · simp [isMade, hc]

end MadeOnce

/-! ## The record of a binding -/

theorem Recorded.registered (h : b.Unused) : b.Recorded [.registered b] where
  origin := ⟨b, [], rfl, h, rfl⟩
  runs_eq := by cases h <;> rfl
  reported := by simp
  singleton _ := .registered h
  transient hl := by
    cases h with
    | new contract name lifetime factory => exact ⟨rfl, rfl, by simp⟩
    | ofInstance contract name i => cases hl

/-- A step changes no label, and begins one run more or none. -/
theorem Recorded.step (h : b.Recorded es) (hstep : e.Step (some b) (some b')) :
    b'.Recorded (es ++ [e]) := by
  have hlabel : b'.row.label = b.row.label := by cases hstep <;> rfl
  have hlife : b'.lifetime = b.lifetime := by cases hstep <;> rfl
  refine ⟨?_, ?_, ?_, ?_, ?_⟩
  · obtain ⟨b₀, rest, rfl, hu, hb₀⟩ := h.origin
    exact ⟨b₀, rest ++ [e], rfl, hu, hb₀.trans hlabel.symm⟩
  · rw [List.countP_append, ← h.runs_eq]
    cases hstep <;> simp [start, release, hold]
  · intro how answer hmem
    have hreports : ∀ how answer, Outcome.Reports how b answer → how.Reports b' answer := by
      intro how answer h
      simp only [row, Row.label, Prod.mk.injEq] at hlabel
      cases how <;> simpa [Outcome.Reports, hlabel] using h
    rcases List.mem_append.1 hmem with hmem | hmem
    · exact hreports how answer (h.reported how answer hmem)
    · rw [List.mem_singleton] at hmem
      subst hmem
      refine hreports how answer ?_
      cases hstep <;> simp [Outcome.Reports]
  · intro hl
    exact (h.singleton (hlife.symm.trans hl)).step (hlife.symm.trans hl) hstep
  · intro hl
    obtain ⟨hc, hb, hran⟩ := h.transient (hlife.symm.trans hl)
    have hl' : b.lifetime = .transient := hlife.symm.trans hl
    have hmem : ∀ how answer, e = .answered how answer → how.ran = true := by
      rintro how answer rfl
      cases hstep with
      | held hs _ => rw [hl'] at hs; cases hs
      | waiting hbusy => rw [hb] at hbusy; cases hbusy
      | kept | passed | failed | stuck => rfl
    refine ⟨?_, ?_, fun how answer h => ?_⟩
    · cases hstep with
      | kept hs _ => rw [hl'] at hs; cases hs
      | began | held | passed | failed | stuck | waiting => exact hc
    · cases hstep with
      | began => simp [start, hl']
      | kept | failed => rfl
      | held | passed | stuck | waiting => exact hb
    · rcases List.mem_append.1 h with h | h
      · exact hran how answer h
      · exact hmem how answer (List.mem_singleton.1 h).symm

/-- **A binding is recorded whatever has happened to it.** -/
theorem recorded_of_drives (h : Drives none es (some b)) : b.Recorded es := by
  have hall := h.keeps (P := fun before s => s.elim (before = []) fun b => b.Recorded before)
    ?_ [] rfl
  · exact hall
  · rintro before (- | b) e t hbefore hstep
    · cases hstep with
      | registered hu =>
        cases hbefore
        exact Recorded.registered hu
    · have hsome : ∃ b', t = some b' := by cases hstep <;> exact ⟨_, rfl⟩
      obtain ⟨b', rfl⟩ := hsome
      exact Recorded.step hbefore hstep

end Binding

/-! ## After a failure -/

/-- No event changes how often a factory is to be asked. -/
theorem BindingEvent.Step.lifetime {b : Binding β} {e : BindingEvent β} {t : Option (Binding β)}
    (h : e.Step (some b) t) : ∃ b', t = some b' ∧ b'.lifetime = b.lifetime := by
  cases h <;> exact ⟨_, rfl, rfl⟩

/-- **A singleton at rest with nothing to hand out can only be run.** -/
theorem BindingEvent.Step.eq_began {b : Binding β} {e : BindingEvent β} {t : Option (Binding β)}
    (h : e.Step (some b) t) (hl : b.lifetime = .singleton) (hb : b.busy = false)
    (hc : b.cell = none) : e = .began := by
  have hidle : ¬ b.Running := fun hr => by
    rw [(hr hl).1] at hb
    cases hb
  cases h with
  | began => rfl
  | held _ hmade =>
    rw [hc] at hmade
    cases hmade
  | passed ht =>
    rw [hl] at ht
    cases ht
  | waiting hbusy =>
    rw [hb] at hbusy
    cases hbusy
  | kept _ hr | failed hr | stuck hr => exact absurd hr hidle

/-- **A singleton at rest with something to hand out can only hand it out.** -/
theorem BindingEvent.Step.eq_held {b : Binding β} {i : Instance β} {e : BindingEvent β}
    {t : Option (Binding β)} (h : e.Step (some b) t) (hl : b.lifetime = .singleton)
    (hb : b.busy = false) (hi : b.held? = some i) :
    e = .answered .held (.ok i) ∧ t = some b := by
  obtain ⟨made, hc, rfl⟩ := Option.map_eq_some_iff.1 hi
  have hidle : ¬ b.Running := fun hr => by
    rw [(hr hl).1] at hb
    cases hb
  cases h with
  | began _ hu =>
    rw [hu hl] at hc
    cases hc
  | held _ hmade =>
    rw [hc] at hmade
    cases hmade
    exact ⟨rfl, rfl⟩
  | passed ht =>
    rw [hl] at ht
    cases ht
  | waiting hbusy =>
    rw [hb] at hbusy
    cases hbusy
  | kept _ hr | failed hr | stuck hr => exact absurd hr hidle

/-- So nothing else happens to it, and it stays as it is. -/
theorem Drives.of_held {b : Binding β} {i : Instance β} {s t : Option (Binding β)}
    {es : List (BindingEvent β)} (h : Drives s es t) (hl : b.lifetime = .singleton)
    (hb : b.busy = false) (hi : b.held? = some i) (hs : s = some b) :
    t = some b ∧ ∀ e ∈ es, e = .answered .held (.ok i) := by
  induction h with
  | nil s => exact ⟨hs, by simp⟩
  | cons hfirst _ ih =>
    subst hs
    obtain ⟨he, ht⟩ := hfirst.eq_held hl hb hi
    obtain ⟨hlast, hrest⟩ := ih ht
    exact ⟨hlast, List.forall_mem_cons.2 ⟨he, hrest⟩⟩

/-- **What follows the failure of a singleton is another run.** -/
theorem Binding.again_of_drives {s t : Option (Binding β)} {es : List (BindingEvent β)}
    (h : Drives s es t) :
    ∀ b, s = some b → b.lifetime = .singleton →
      es.IsChain fun e e' => e.isFailed = true → e' = .began := by
  induction h with
  | nil s => exact fun _ _ _ => .nil
  | cons hfirst hrest ih =>
    rintro b rfl hl
    obtain ⟨b', rfl, hl'⟩ := hfirst.lifetime
    have htail := ih b' rfl (hl'.trans hl)
    cases hrest with
    | nil => exact .singleton _
    | cons hnext _ =>
      refine List.isChain_cons_cons.2 ⟨fun hfailed => ?_, htail⟩
      -- a failure has left the binding at rest with nothing to hand out
      cases hfirst with
      | failed hr => exact hnext.eq_began hl rfl (hr hl).2
      | began | held | kept | passed | stuck | waiting => cases hfailed

/-! ## Runs that come to an end -/

namespace Container

variable {c c' c'' : Container β} {b : Binding β} {resolve : Resolver β}

/-- No factory of a singleton runs that was not running before. -/
def Quiet (c c' : Container β) : Prop :=
  ∀ key b', c'.get? key = some b' → b'.busy = true → ∃ b, c.get? key = some b ∧ b.busy = true

theorem Quiet.refl (c : Container β) : Quiet c c := fun _ b' h hb => ⟨b', h, hb⟩

theorem Quiet.trans (h : Quiet c c') (h' : Quiet c' c'') : Quiet c c'' := by
  intro key b'' hb'' hbusy
  obtain ⟨b', hb', hbusy'⟩ := h' key b'' hb'' hbusy
  exact h key b' hb' hbusy'

theorem quiet_add (h : c.add b = .ok c') (hu : b.Unused) : Quiet c c' := by
  intro key b' hb' hbusy
  rw [get?_add h] at hb'
  split at hb'
  · cases hb'
    cases hu <;> cases hbusy
  · exact ⟨b', hb', hbusy⟩

theorem quiet_registerNew {contract : Contract} {name : String} {body : β}
    (h : c.registerNew contract name body = .ok c') : Quiet c c' :=
  quiet_add (c := (c.mint body).2) h (.ofInstance contract name (c.mint body).1)

theorem quiet_ofRegistered {outcome : Except ContainerError (Container β)}
    (h : ∀ c', outcome = .ok c' → Quiet c c') :
    Quiet c (ContainerAnswer.ofRegistered c outcome : ContainerAnswer β × Container β).2 := by
  cases outcome with
  | error e => exact .refl c
  | ok c' => exact h c' rfl

/-- A way of resolving that leaves no factory running when it comes to an end. -/
def Ends (resolve : Resolver β) : Prop :=
  ∀ c contract name, ((resolve c contract name).1 = .error .endless → False) →
    Quiet c (resolve c contract name).2

theorem settles_access (h : Ends resolve) : (access resolve).Settles False Quiet where
  refl := .refl
  trans := .trans
  resolve := h
  register h := quiet_add h (.new _ _ _ _)
  registerNew := quiet_registerNew

/-- A run that comes to an end leaves its binding at rest, and whatever it resolved. -/
theorem quiet_conclude {made : Except BuildError (Product β)} (h : Quiet (c.start b.key) c')
    (hget : c.get? b.key = some b) (hend : made ≠ .error .endless) :
    Quiet c (conclude b (made, c')).2 := by
  intro key b' hb' hbusy
  by_cases hk : key = b.key
  · -- a singleton that fails is released, one that does not holds something
    subst hk
    have hstart : b.lifetime = .transient → c'.get? b.key = some b' → False := by
      intro hl hb'
      obtain ⟨old, hold, hbusy'⟩ := h b.key b' hb' hbusy
      simp only [start, get?_update, hget, if_true, Option.map_some, Option.some.injEq] at hold
      rw [← hold] at hbusy'
      simp [Binding.start, hl] at hbusy'
    rcases made with (reason | -) | product
    · simp only [conclude, release, get?_update, if_true, Option.map_eq_some_iff] at hb'
      obtain ⟨old, -, rfl⟩ := hb'
      cases hbusy
    · exact absurd rfl hend
    · cases hl : b.lifetime with
      | singleton =>
        simp only [conclude, hl, keep, get?_update, if_true, Option.map_eq_some_iff] at hb'
        obtain ⟨old, -, rfl⟩ := hb'
        cases hbusy
      | transient =>
        simp only [conclude, hl, get?_produce] at hb'
        exact (hstart hl hb').elim
  · rw [get?_conclude_of_ne hk] at hb'
    obtain ⟨old, hold, hbusy'⟩ := h key b' hb' hbusy
    rw [start, get?_update, if_neg hk] at hold
    exact ⟨old, hold, hbusy'⟩

theorem quiet_materialize (h : Ends resolve) {contract : Contract}
    (hs : b.contract.same contract = true) (hget : c.get? b.key = some b)
    (hend : (c.materialize resolve contract b).1 ≠ .error .endless) :
    Quiet c (c.materialize resolve contract b).2 := by
  rcases held_or_unheld b with ⟨hl, made, hc⟩ | hu
  · rw [(materialize_of_held resolve (fun _ _ _ => []) hs hl hc).1]
    exact .refl c
  · cases hb : b.busy with
    | true =>
      rw [(materialize_of_busy resolve (fun _ _ _ => []) contract hu hb).1] at hend
      exact absurd rfl hend
    | false =>
      rw [materialize_eq_conclude resolve hs hu hb] at hend ⊢
      have hrun := b.factory.run_settles (settles_access h) b.runs [] (c.start b.key)
      generalize b.factory.run (access resolve) b.runs [] (c.start b.key) = run at hrun hend ⊢
      obtain ⟨made, c'⟩ := run
      have hmade : made ≠ .error .endless := by
        rintro rfl
        exact hend rfl
      exact quiet_conclude (hrun hmade) hget hmade

theorem ends_resolveWithin (depth : Nat) : Ends (resolveWithin (β := β) depth) := by
  induction depth with
  | zero => intro c contract name _; exact .refl c
  | succ depth ih =>
    intro c contract name hend
    unfold resolveWithin at hend ⊢
    cases hf : c.find? contract name with
    | none => exact .refl c
    | some b =>
      simp only [hf] at hend
      have hkey : b.key = contract.key name := key_of_get?_eq_some hf
      exact quiet_materialize ih (same_of_find?_eq_some hf).1 (hkey ▸ hf) hend

theorem quiet_materializeAll (contract : Contract) (names : List String) :
    ∀ c : Container β,
      (c.materializeAll contract (names.map contract.key)).1 ≠ .error .endless →
      Quiet c (c.materializeAll contract (names.map contract.key)).2 := by
  induction names with
  | nil => intro c _; exact .refl c
  | cons name rest ih =>
    intro c hend
    have hstep : ∀ b, c.get? (contract.key name) = some b →
        (c.materialize (resolveWithin c.depth) contract b).1 ≠ .error .endless →
        Quiet c (c.materialize (resolveWithin c.depth) contract b).2 := fun b hf =>
      quiet_materialize (ends_resolveWithin c.depth) (same_of_find?_eq_some hf).1
        ((key_of_get?_eq_some hf).symm ▸ hf)
    rw [List.map_cons] at hend ⊢
    rcases materializeAll_cases c contract (contract.key name) (rest.map contract.key) with
      ⟨-, hall, -⟩ | ⟨b, e, hf, hres, hall, -⟩ | ⟨b, i, c', hf, hres, hall, -⟩ <;>
      rw [hall] at hend ⊢
    · exact ih c hend
    · refine hstep b hf fun he => hend ?_
      rw [hres] at he
      cases he
      rfl
    · have hfirst := hstep b hf (by simp [hres])
      rw [hres] at hfirst
      refine hfirst.trans (ih c' fun he => hend ?_)
      rw [he]
      rfl

/-- A call that comes to an end leaves no factory running. -/
theorem quiet_perform (c : Container β) (call : ContainerCall β)
    (hend : (c.perform call).1 ≠ .refused .endless) : Quiet c (c.perform call).2 := by
  cases call with
  | register contract name lifetime factory =>
    exact quiet_ofRegistered fun _ h => quiet_add h (.new contract name lifetime factory)
  | registerInstance contract name made =>
    exact quiet_ofRegistered fun _ h => quiet_add h (.ofInstance contract name made)
  | registerNew contract name body => exact quiet_ofRegistered fun _ h => quiet_registerNew h
  | resolve contract name =>
    have hstep : ((c.resolve contract name).1 = .error .endless → False) →
        Quiet c (c.resolve contract name).2 := ends_resolveWithin _ c contract name
    refine hstep fun he => hend ?_
    simp [perform, he, ContainerAnswer.ofResolved]
  | resolveAll contract =>
    have hall : (c.resolveAll contract).1 ≠ .error .endless →
        Quiet c (c.resolveAll contract).2 := by
      rw [resolveAll, keys_entriesOf]
      exact quiet_materializeAll contract (c.names contract) c
    refine hall fun he => hend ?_
    simp [perform, he, ContainerAnswer.ofResolvedAll]
  | contains | names | infos | size => exact .refl c

end Container

end ModularHost
