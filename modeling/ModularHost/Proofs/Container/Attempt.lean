import ModularHost.Proofs.Container.Journal
/-!
# One attempt

A resolution comes down to what the binding has: an instance, which it hands out, or a factory,
which is run once. What an attempt leaves of a singleton is known to the last field, whatever the
factory did on the way (`find?_of_failed`, `find?_of_made`): after a failure it is as before, with
one run more to its count, so the next resolution is an attempt again; after a success it holds what
was made, and there is no further attempt.
-/


namespace ModularHost

variable {β : Type}

namespace Container

variable {c : Container β} {contract : Contract} {name : String} {b : Binding β}

/-- A run of a binding's factory, as a resolution makes it. -/
def attempt (c : Container β) (b : Binding β) :
    Except BuildError (Product β) × Container β :=
  b.factory.run (access (resolveWithin c.depth)) b.runs [] (c.start b.key)

/-- The instance a binding comes to: the one it holds, or the one that a run of its factory makes.
There is none where the run fails or never ends. -/
def instance? (c : Container β) (b : Binding β) : Option (Instance β) :=
  match b.lifetime, b.cell with
  | .singleton, some made => some made.content
  | _, _ =>
    if b.busy then none
    else match c.attempt b with
      | (.ok product, c) => some (c.produce product).1
      | (.error _, _) => none

theorem key_of_find? (hf : c.find? contract name = some b) : b.key = contract.key name :=
  key_of_get?_eq_some hf

theorem get?_of_find? (hf : c.find? contract name = some b) : c.get? b.key = some b :=
  (key_of_find? hf).symm ▸ hf

/-- A binding that is found is the one that answers. -/
theorem resolve_eq_materialize (hf : c.find? contract name = some b) :
    c.resolve contract name = c.materialize (resolveWithin c.depth) contract b := by
  simp [resolve, resolveWithin, hf]

/-- A name under which nothing is bound is reported, and nothing is put in its place. -/
theorem resolve_of_find?_eq_none (hf : c.find? contract name = none) :
    c.resolve contract name = (.error (.unresolvedName contract.name name), c) := by
  simp [resolve, resolveWithin, hf]

theorem resolve_of_held (hf : c.find? contract name = some b) (hl : b.lifetime = .singleton)
    {made : Erased β} (hc : b.cell = some made) :
    c.resolve contract name = (.ok made.content, c) := by
  rw [resolve_eq_materialize hf]
  exact (materialize_of_held _ (journalWithin c.depth) (same_of_find?_eq_some hf).1 hl hc).1

theorem resolve_of_busy (hf : c.find? contract name = some b) (hu : b.Unheld)
    (hb : b.busy = true) : c.resolve contract name = (.error .endless, c) := by
  rw [resolve_eq_materialize hf]
  exact (materialize_of_busy _ (journalWithin c.depth) contract hu hb).1

/-- **A resolution of a binding with nothing to hand out is one attempt.** -/
theorem resolve_eq_conclude (hf : c.find? contract name = some b) (hu : b.Unheld)
    (hb : b.busy = false) : c.resolve contract name = conclude b (c.attempt b) := by
  rw [resolve_eq_materialize hf]
  exact materialize_eq_conclude _ (same_of_find?_eq_some hf).1 hu hb

/-! ## What an attempt leaves -/

/-- While a singleton's factory runs, its binding stays as the run began. -/
theorem get?_attempt (hf : c.find? contract name = some b) (hl : b.lifetime = .singleton) :
    (c.attempt b).2.get? b.key = some b.start := by
  have hrun := journaled_watch (tells_resolveWithin c.depth) c b
  have hstarted : (c.start b.key).get? b.key = some b.start := by
    rw [start, get?_update, if_pos rfl, get?_of_find? hf, Option.map_some]
  have hkept := hrun.stable b.key b.start hstarted (by simp [Binding.start, hl])
  rwa [attempt, run_eq_watch _ (journalWithin c.depth)]

/-- **A failure leaves a singleton as it was**, but for the count of its runs. -/
theorem find?_of_failed (hf : c.find? contract name = some b) (hl : b.lifetime = .singleton)
    (hu : b.Unheld) (hb : b.busy = false) {reason : String}
    (ha : (c.attempt b).1 = .error (.failed reason)) :
    (c.resolve contract name).2.find? contract name = some { b with runs := b.runs + 1 } := by
  have hget := get?_attempt hf hl
  have hsame : b.start.release = { b with runs := b.runs + 1 } := by
    simp [Binding.start, Binding.release, hb]
  rw [resolve_eq_conclude hf hu hb]
  rcases hrun : c.attempt b with ⟨made, c'⟩
  rw [hrun] at ha hget
  subst ha
  rw [find?, ← key_of_find? hf]
  simp only [conclude, release, get?_update, if_true, hget, Option.map_some, hsame]

/-- Nothing but its own binding is changed by an attempt beyond what the factory asked for. -/
theorem get?_resolve_of_ne (hf : c.find? contract name = some b) (hu : b.Unheld)
    (hb : b.busy = false) {key : BindingKey} (hk : key ≠ contract.key name) :
    (c.resolve contract name).2.get? key = (c.attempt b).2.get? key := by
  rw [resolve_eq_conclude hf hu hb]
  exact get?_conclude_of_ne (by rwa [key_of_find? hf]) _ _

/-- What a resolution leaves of a container when the factory it runs fails with a reason. -/
structure Fails (c : Container β) (contract : Contract) (name : String) (b : Binding β)
    (reason : String) : Prop where
  reported : (c.resolve contract name).1 =
    .error (.constructionFailed b.contract.name b.name reason)
  /-- The binding is as before, with one run more to its count. -/
  binding : (c.resolve contract name).2.find? contract name = some { b with runs := b.runs + 1 }
  /-- The rest is as the factory's run left it. -/
  rest : (c.resolve contract name).2 = (c.attempt b).2.release b.key
  /-- A factory that asks for nothing leaves the rest as it was. -/
  unchanged : (∃ produce, b.factory = .build produce) →
    ∀ key ≠ b.key, (c.resolve contract name).2.get? key = c.get? key
  /-- The next resolution runs the factory again. -/
  again : (c.resolve contract name).2.resolve contract name =
    conclude { b with runs := b.runs + 1 }
      ((c.resolve contract name).2.attempt { b with runs := b.runs + 1 })

/-- **A failed attempt is reported, leaves no trace but its count, and is not the last.** -/
theorem fails_of_attempt (hf : c.find? contract name = some b) (hl : b.lifetime = .singleton)
    (hu : b.Unheld) (hb : b.busy = false) {reason : String}
    (ha : (c.attempt b).1 = .error (.failed reason)) : c.Fails contract name b reason := by
  have hbinding := find?_of_failed hf hl hu hb ha
  have hout : c.resolve contract name =
      (.error (.constructionFailed b.contract.name b.name reason),
        (c.attempt b).2.release b.key) := by
    rw [resolve_eq_conclude hf hu hb]
    rcases hrun : c.attempt b with ⟨made, c'⟩
    rw [hrun] at ha
    subst ha
    rfl
  refine ⟨by rw [hout], hbinding, by rw [hout], ?_, ?_⟩
  · rintro ⟨produce, hp⟩ key hk
    rw [get?_resolve_of_ne hf hu hb (key_of_find? hf ▸ hk), attempt, hp]
    simp only [Factory.run, start, get?_update, if_neg hk]
  · exact resolve_eq_conclude hbinding hu hb

/-- **A success is kept** by a singleton. -/
theorem find?_of_made (hf : c.find? contract name = some b) (hl : b.lifetime = .singleton)
    (hu : b.Unheld) (hb : b.busy = false) {product : Product β}
    (ha : (c.attempt b).1 = .ok product) :
    (c.resolve contract name).2.find? contract name =
      some (b.start.hold ((c.attempt b).2.produce product).1) := by
  have hget := get?_attempt hf hl
  rw [resolve_eq_conclude hf hu hb]
  rcases hrun : c.attempt b with ⟨made, c'⟩
  rw [hrun] at ha hget
  subst ha
  rw [find?, ← key_of_find? hf]
  simp only [conclude, hl, keep, get?_update, get?_produce, if_true, hget, Option.map_some]

/-! ## The instance of a binding -/

/-- **A binding hands out its instance**, and a singleton hands it out again ever after. -/
theorem resolve_of_instance? (hf : c.find? contract name = some b) {i : Instance β}
    (hi : c.instance? b = some i) :
    (c.resolve contract name).1 = .ok i ∧
    (b.lifetime = .singleton →
      ((c.resolve contract name).2.resolve contract name).1 = .ok i) := by
  rcases held_or_unheld b with ⟨hl, made, hc⟩ | hu
  · simp only [instance?, hl, hc, Option.some.injEq] at hi
    rw [resolve_of_held hf hl hc, ← hi]
    exact ⟨rfl, fun _ => by rw [resolve_of_held hf hl hc]⟩
  · have hattempt : b.busy = false ∧ ∃ product, (c.attempt b).1 = .ok product ∧
        ((c.attempt b).2.produce product).1 = i := by
      unfold instance? at hi
      split at hi
      · rename_i hl hc
        rw [hu hl] at hc
        cases hc
      · split at hi
        · cases hi
        · rename_i hb
          rcases hrun : c.attempt b with ⟨e | product, c'⟩ <;> rw [hrun] at hi
          · cases hi
          · exact ⟨by simpa using hb, product, rfl, by simpa using hi⟩
    obtain ⟨hb, product, ha, rfl⟩ := hattempt
    refine ⟨?_, fun hl => ?_⟩
    · rw [resolve_eq_conclude hf hu hb]
      rcases hrun : c.attempt b with ⟨made, c'⟩
      rw [hrun] at ha
      subst ha
      rfl
    · rw [resolve_of_held (find?_of_made hf hl hu hb ha) hl rfl]
      rfl

/-- **A binding without an instance says why**: its factory failed in this attempt, or waits for
itself. -/
theorem resolve_of_instance?_eq_none (hf : c.find? contract name = some b)
    (hi : c.instance? b = none) :
    (∃ reason, (c.attempt b).1 = .error (.failed reason) ∧ (c.resolve contract name).1 =
      .error (.constructionFailed b.contract.name b.name reason)) ∨
    (b.busy = true ∨ (c.attempt b).1 = .error .endless) ∧
      (c.resolve contract name).1 = .error .endless := by
  rcases held_or_unheld b with ⟨hl, made, hc⟩ | hu
  · simp [instance?, hl, hc] at hi
  · cases hb : b.busy with
    | true => exact .inr ⟨.inl rfl, by rw [resolve_of_busy hf hu hb]⟩
    | false =>
      rw [resolve_eq_conclude hf hu hb]
      unfold instance? at hi
      split at hi
      · cases hi
      · rw [if_neg (by simp [hb])] at hi
        rcases hrun : c.attempt b with ⟨(reason | -) | product, c'⟩ <;> rw [hrun] at hi
        · exact .inl ⟨reason, rfl, rfl⟩
        · exact .inr ⟨.inr rfl, rfl⟩
        · cases hi

/-! ## The journal of a resolution -/

/-- The last thing that happens is that the binding answers. -/
theorem materializeJournal_answers (resolve : Resolver β) (journal : Journaling β)
    (c : Container β) (contract : Contract) (b : Binding β) :
    ∃ before how, c.materializeJournal resolve journal contract b =
      before ++ [(b.key, .answered how (c.materialize resolve contract b).1)] := by
  unfold materializeJournal
  split
  · exact ⟨[], .held, rfl⟩
  · split
    · exact ⟨[], .waiting, rfl⟩
    · exact ⟨_ :: _, _, rfl⟩

theorem resolveJournal_answers (hf : c.find? contract name = some b) :
    ∃ before how, c.resolveJournal contract name =
      before ++ [(contract.key name, .answered how (c.resolve contract name).1)] := by
  obtain ⟨before, how, hjournal⟩ := materializeJournal_answers (resolveWithin c.depth)
    (journalWithin c.depth) c contract b
  refine ⟨before, how, ?_⟩
  rw [resolve_eq_materialize hf, ← key_of_find? hf, ← hjournal, resolveJournal, journalWithin]
  simp only [hf]

theorem resolveJournal_of_find?_eq_none (hf : c.find? contract name = none) :
    c.resolveJournal contract name = [] := by
  rw [resolveJournal, journalWithin]
  simp only [hf]

/-- What a binding hands out is in the journal of the resolution. -/
theorem mem_resolveJournal {i : Instance β} (hres : (c.resolve contract name).1 = .ok i) :
    ∃ how, (contract.key name, .answered how (.ok i)) ∈ c.resolveJournal contract name := by
  cases hf : c.find? contract name with
  | none =>
    rw [resolve_of_find?_eq_none hf] at hres
    cases hres
  | some b =>
    obtain ⟨before, how, hjournal⟩ := resolveJournal_answers hf
    exact ⟨how, by rw [hjournal, hres]; simp⟩

/-- What the bindings of a contract hand out is in the journal of all their resolutions. -/
theorem mem_materializeAllJournal {names : List String} {i : Instance β} :
    ∀ (c : Container β) (found : List (String × Instance β)),
      (c.materializeAll contract (names.map contract.key)).1 = .ok found → (name, i) ∈ found →
      ∃ how, (contract.key name, .answered how (.ok i)) ∈
        c.materializeAllJournal contract (names.map contract.key) := by
  induction names with
  | nil =>
    intro c found hall hmem
    cases hall
    cases hmem
  | cons first rest ih =>
    intro c found hfound hmem
    rw [List.map_cons] at hfound ⊢
    rcases materializeAll_cases c contract (contract.key first) (rest.map contract.key) with
      ⟨-, hall, hjournal⟩ | ⟨b, e, -, -, hall, -⟩ | ⟨b, j, c', hf, hres, hall, hjournal⟩ <;>
      rw [hall] at hfound
    · rw [hjournal]
      exact ih c found hfound hmem
    · cases hfound
    · rw [hjournal]
      rcases hrest : (c'.materializeAll contract (rest.map contract.key)).1 with e | found' <;>
        rw [hrest] at hfound <;> cases hfound
      -- the first binding's answer ends its part of the journal; the others follow
      rcases List.mem_cons.1 hmem with heq | hmem
      · cases heq
        obtain ⟨before, how, hanswer⟩ := materializeJournal_answers (resolveWithin c.depth)
          (journalWithin c.depth) c contract b
        refine ⟨how, List.mem_append_left _ ?_⟩
        rw [hanswer, hres, (same_of_find?_eq_some hf).2, key_of_find? hf]
        exact List.mem_append_right _ (List.mem_singleton.2 rfl)
      · obtain ⟨how, hin⟩ := ih c' found' hrest hmem
        exact ⟨how, List.mem_append_right _ hin⟩

/-- Where one of the bindings refuses, that is the last of the journal, and the answer to all. -/
theorem materializeAllJournal_of_error {names : List String} {e : ContainerError} :
    ∀ c : Container β, (c.materializeAll contract (names.map contract.key)).1 = .error e →
      ∃ before key how, c.materializeAllJournal contract (names.map contract.key) =
        before ++ [(key, .answered how (.error e))] := by
  induction names with
  | nil =>
    intro c he
    cases he
  | cons first rest ih =>
    intro c he
    rw [List.map_cons] at he ⊢
    rcases materializeAll_cases c contract (contract.key first) (rest.map contract.key) with
      ⟨-, hall, hjournal⟩ | ⟨b, e', -, hres, hall, hjournal⟩ | ⟨b, j, c', -, -, hall, hjournal⟩ <;>
      rw [hall] at he <;> rw [hjournal]
    · exact ih c he
    · cases he
      obtain ⟨before, how, hanswer⟩ := materializeJournal_answers (resolveWithin c.depth)
        (journalWithin c.depth) c contract b
      exact ⟨before, b.key, how, by rw [hanswer, hres]⟩
    · rcases hrest : (c'.materializeAll contract (rest.map contract.key)).1 with e' | found <;>
        rw [hrest] at he <;> cases he
      obtain ⟨before, key, how, htail⟩ := ih c' hrest
      exact ⟨_ ++ before, key, how, by rw [htail, List.append_assoc]⟩

end Container

end ModularHost
