import ModularHost.Proofs.Container.Needs
import ModularHost.Proofs.Container.Unaided
/-!
# All implementations, one after the other

Resolving all implementations of a contract and resolving their names one after the other, up to the
first that is refused, are the same thing: the same answer, and the same container afterwards
(`Container.resolveAll_eq_resolveEach`). So what becomes of the bindings can be said name by name.
Those before the one that refuses have answered, and the singletons among them hold what they
answered; the one that refuses holds nothing; those after it are not asked, and unless a factory
before them gets at them by itself they are what they were (`resolveAll_of_every_run`).
-/


namespace ModularHost

variable {β : Type}

namespace Container

variable {c c' c₁ : Container β} {contract : Contract} {name : String} {b : Binding β}
  {i : Instance β}

/-- Resolves some names of a contract one after the other, up to the first that is refused. -/
def resolveEach (c : Container β) (contract : Contract) :
    List String → Except ContainerError (List (String × Instance β)) × Container β
  | [] => (.ok [], c)
  | name :: rest =>
    match c.resolve contract name with
    | (.error e, c) => (.error e, c)
    | (.ok i, c) =>
      match c.resolveEach contract rest with
      | (.error e, c) => (.error e, c)
      | (.ok found, c) => (.ok ((name, i) :: found), c)

/-- **What resolving some names begins with**: the first is refused, and that is the end of it, or
it answers, and the others follow. -/
theorem resolveEach_cases (c : Container β) (contract : Contract) (name : String)
    (rest : List String) :
    (∃ e c₁, c.resolve contract name = (.error e, c₁) ∧
      c.resolveEach contract (name :: rest) = (.error e, c₁)) ∨
    ∃ i c₁, c.resolve contract name = (.ok i, c₁) ∧
      c.resolveEach contract (name :: rest) =
        ((c₁.resolveEach contract rest).1.map ((name, i) :: ·),
          (c₁.resolveEach contract rest).2) := by
  simp only [resolveEach]
  rcases c.resolve contract name with ⟨e | i, c₁⟩
  · exact .inl ⟨e, c₁, rfl, rfl⟩
  · refine .inr ⟨i, c₁, rfl, ?_⟩
    dsimp only
    rcases c₁.resolveEach contract rest with ⟨e | found, c₂⟩ <;> rfl

/-! ## The same thing -/

/-- A resolution takes no binding away. -/
theorem find?_isSome_resolve (other : Contract) (name : String) {name' : String}
    (hf : (c.find? contract name').isSome) :
    ((c.resolve other name).2.find? contract name').isSome := by
  have hkept := Ledger.extends_resolve c.ledger other name
  rw [ledger_resolve] at hkept
  exact get?_isSome_of_extends hkept hf

theorem materializeAll_eq_resolveEach (contract : Contract) (names : List String) :
    ∀ c : Container β, (∀ name ∈ names, (c.find? contract name).isSome) →
      c.materializeAll contract (names.map contract.key) = c.resolveEach contract names := by
  induction names with
  | nil => intro c _; rfl
  | cons name rest ih =>
    intro c hfound
    obtain ⟨hfirst, hrest⟩ := List.forall_mem_cons.1 hfound
    obtain ⟨b, hb⟩ := Option.isSome_iff_exists.1 hfirst
    have hget : c.get? (contract.key name) = some b := hb
    have hname : b.name = name := (same_of_find?_eq_some hb).2
    have hlater : ∀ name' ∈ rest, ((c.resolve contract name).2.find? contract name').isSome :=
      fun name' hmem => find?_isSome_resolve contract name (hrest name' hmem)
    simp only [List.map_cons, materializeAll, hget, resolveEach, ← resolve_eq_materialize hb]
    rcases hres : c.resolve contract name with ⟨e | i, c₁⟩
    · rfl
    · rw [hres] at hlater
      have hsame := ih c₁ hlater
      rcases hrest : c₁.resolveEach contract rest with ⟨e | found, c₂⟩ <;> rw [hrest] at hsame <;>
        simp only [hsame, hrest, hname]

/-- **Resolving all implementations is resolving their names one after the other.** -/
theorem resolveAll_eq_resolveEach (c : Container β) (contract : Contract) :
    c.resolveAll contract = c.resolveEach contract (c.names contract) := by
  rw [resolveAll, keys_entriesOf]
  exact materializeAll_eq_resolveEach contract _ c fun name hmem => find?_isSome_of_mem_names hmem

/-- No two implementations of a contract share a name. -/
theorem nodup_names (c : Container β) (contract : Contract) : (c.names contract).Nodup := by
  have hkeys : ((c.names contract).map contract.key).Nodup := by
    rw [← keys_entriesOf]
    refine (Entry.sort_perm.map _).nodup_iff.2 (c.keys_nodup.sublist ?_)
    exact List.filter_sublist.map _
  exact hkeys.of_map

/-! ## What a resolution leaves of the binding it asks -/

/-- Calls lead from the empty container to this one. -/
def Reached (c : Container β) : Prop := ∃ calls, (empty.run calls).2 = c

theorem Reached.run (h : c.Reached) (calls : List (ContainerCall β)) :
    (c.run calls).2.Reached := by
  obtain ⟨earlier, rfl⟩ := h
  exact ⟨earlier ++ calls, run_append _ _ _⟩

theorem Reached.resolve (h : c.Reached) (contract : Contract) (name : String) :
    (c.resolve contract name).2.Reached :=
  h.run [.resolve contract name]

/-- What has happened to a binding is recorded. -/
theorem Reached.recorded (h : c.Reached) {key : BindingKey} (hb : c.get? key = some b) :
    ∃ es, b.Recorded es := by
  obtain ⟨calls, rfl⟩ := h
  have hdrives := (journaled_run calls .empty).follows key
  exact ⟨_, Binding.recorded_of_drives (hb ▸ hdrives)⟩

/-- The factory of a singleton that holds something is not running. -/
theorem Reached.idle_of_held (h : c.Reached) {key : BindingKey} (hb : c.get? key = some b)
    (hl : b.lifetime = .singleton) (hi : b.held? = some i) : b.busy = false := by
  obtain ⟨es, hrecorded⟩ := h.recorded hb
  exact (hrecorded.singleton hl).idle (hi ▸ rfl)

/-- **What a singleton holds it goes on holding**, and whoever asks is handed it. -/
theorem Reached.get?_of_held (h : c.Reached) {key : BindingKey} (hb : c.get? key = some b)
    (hl : b.lifetime = .singleton) (hi : b.held? = some i) {j : Journal β}
    (hj : Journaled c j c') :
    c'.get? key = some b ∧ ∀ e ∈ j.of key, e = .answered .held (.ok i) :=
  (hj.follows key).of_held hl (h.idle_of_held hb hl hi) hi hb

/-- A singleton holds what it has answered. -/
theorem held_of_resolve (hres : (c.resolve contract name).1 = .ok i) :
    ∃ b, (c.resolve contract name).2.find? contract name = some b ∧
      (b.lifetime = .singleton → b.held? = some i) := by
  have hledger : (c.ledger.resolve contract name).1 = .ok i := by
    rw [ledger_resolve]
    exact hres
  obtain ⟨r, hr, hmade⟩ := Ledger.made_of_resolve hledger
  rw [ledger_resolve] at hr
  obtain ⟨b, hb, rfl⟩ := Option.map_eq_some_iff.1 ((ledger_find? _ _).symm.trans hr)
  exact ⟨b, hb, hmade⟩

/-- **A binding that refuses is left with nothing to hand out.** -/
theorem Reached.unmaterialized_of_refused (h : c.Reached) (hf : (c.find? contract name).isSome)
    {e : ContainerError} (he : (c.resolve contract name).1 = .error e) :
    ∃ b, (c.resolve contract name).2.find? contract name = some b ∧ b.materialized = false := by
  obtain ⟨b, hb⟩ := Option.isSome_iff_exists.1 hf
  obtain ⟨b', (hb' : (c.resolve contract name).2.find? contract name = some b'), hlife, -⟩ :=
    (journaled_resolve c contract name).get? hb
  refine ⟨b', hb', ?_⟩
  cases hl : b.lifetime with
  | transient =>
    obtain ⟨es, hrecorded⟩ := (h.resolve contract name).recorded hb'
    simp [Binding.materialized, (hrecorded.transient (hlife.trans hl)).1]
  | singleton =>
    rcases held_or_unheld b with ⟨-, made, hc⟩ | hu
    · rw [resolve_of_held hb hl hc] at he
      cases he
    · have hc : b.cell = none := hu hl
      cases hbusy : b.busy with
      | true =>
        rw [resolve_of_busy hb hu hbusy, hb] at hb'
        cases hb'
        simp [Binding.materialized, hc]
      | false =>
        have hattempt := get?_attempt hb hl
        rcases hrun : c.attempt b with ⟨(reason | -) | product, c₁⟩
        · have hfailed := find?_of_failed hb hl hu hbusy (by rw [hrun])
          rw [hfailed] at hb'
          cases hb'
          simp [Binding.materialized, hc]
        · rw [hrun] at hattempt
          rw [resolve_eq_conclude hb hu hbusy, hrun] at hb'
          rw [key_of_find? hb] at hattempt
          cases hattempt.symm.trans hb'
          simp [Binding.materialized, Binding.start, hc]
        · rw [resolve_eq_conclude hb hu hbusy, hrun] at he
          cases he

/-! ## What resolving some names leaves -/

theorem find?_isSome_resolveEach (names : List String) :
    ∀ {c : Container β}, (c.find? contract name).isSome →
      ((c.resolveEach contract names).2.find? contract name).isSome := by
  induction names with
  | nil => intro c hf; exact hf
  | cons first rest ih =>
    intro c hf
    have hstep := find?_isSome_resolve contract first hf
    rcases resolveEach_cases c contract first rest with
      ⟨e, c₁, hres, heach⟩ | ⟨i, c₁, hres, heach⟩ <;> rw [hres] at hstep <;> rw [heach]
    · exact hstep
    · exact ih hstep

theorem staysWithin_resolveEach {K : BindingKey → Prop} (contract : Contract)
    (names : List String) : ∀ {c : Container β}, c.Encloses K →
      (∀ name ∈ names, K (contract.key name)) →
      StaysWithin K c (c.resolveEach contract names).2 := by
  induction names with
  | nil => intro c hc _; exact .refl hc
  | cons name rest ih =>
    intro c hc hK
    obtain ⟨hfirst, hrest⟩ := List.forall_mem_cons.1 hK
    have hstep := staysWithin_resolve hc hfirst
    rcases resolveEach_cases c contract name rest with
      ⟨e, c₁, hres, heach⟩ | ⟨i, c₁, hres, heach⟩ <;> rw [hres] at hstep <;> rw [heach]
    · exact hstep
    · exact hstep.trans (ih hstep.encloses hrest)

/-- **What some names do not need, directly or through others, is left alone.** -/
theorem get?_resolveEach_of_not_needed {names : List String} {key : BindingKey}
    (hnot : ∀ name ∈ names, ¬ Relation.ReflTransGen c.Needs (contract.key name) key) :
    (c.resolveEach contract names).2.get? key = c.get? key := by
  have hclosed := c.encloses_needed fun first => ∃ name ∈ names, first = contract.key name
  refine (staysWithin_resolveEach contract names hclosed fun name hmem =>
    ⟨_, ⟨name, hmem, rfl⟩, .refl⟩).outside key ?_
  rintro ⟨_, ⟨name, hmem, rfl⟩, hreach⟩
  exact hnot name hmem hreach

/-- The singletons among some names hold what was found under them. -/
def Holds (c : Container β) (contract : Contract) (found : List (String × Instance β)) : Prop :=
  ∀ name i, (name, i) ∈ found → ∃ b, c.find? contract name = some b ∧
    (b.lifetime = .singleton → b.held? = some i)

/-- One more resolution takes from no singleton what it holds. -/
theorem Reached.holds_resolve (h : c.Reached) {found : List (String × Instance β)}
    (hheld : c.Holds contract found) (name : String) :
    (c.resolve contract name).2.Holds contract found := by
  intro name' i hmem
  obtain ⟨b, hb, hi⟩ := hheld name' i hmem
  obtain ⟨b', hb', hlife, -⟩ := (journaled_resolve c contract name).get? hb
  refine ⟨b', hb', fun hl => ?_⟩
  have hl' : b.lifetime = .singleton := hlife.symm.trans hl
  have hkept := (h.get?_of_held hb hl' (hi hl') (journaled_resolve c contract name)).1
  cases hkept.symm.trans hb'
  exact hi hl'

/-- **Names that all answer**: what is found is found under them in their order, and is held. -/
theorem Reached.resolveEach_ok (contract : Contract) (names : List String) :
    ∀ {c c' : Container β} {found : List (String × Instance β)}, c.Reached →
      c.resolveEach contract names = (.ok found, c') →
      c'.Reached ∧ found.map (·.1) = names ∧ c'.Holds contract found ∧
        ∀ {earlier : List (String × Instance β)}, c.Holds contract earlier →
          c'.Holds contract earlier := by
  induction names with
  | nil =>
    intro c c' found h hall
    cases hall
    exact ⟨h, rfl, fun _ _ hmem => (by cases hmem), id⟩
  | cons name rest ih =>
    intro c c' found h hall
    rcases resolveEach_cases c contract name rest with
      ⟨e, c₁, -, heach⟩ | ⟨i, c₁, hres, heach⟩ <;> rw [heach] at hall
    · cases hall
    · have hreached := h.resolve contract name
      have hanswer := held_of_resolve (congrArg Prod.fst hres)
      rw [hres] at hreached hanswer
      rcases hrest : c₁.resolveEach contract rest with ⟨e | found', c₂⟩ <;> rw [hrest] at hall
      · cases hall
      · cases hall
        obtain ⟨hlast, hnames, hfound, hkept⟩ := ih hreached hrest
        refine ⟨hlast, by simp [hnames], ?_, fun hearlier => hkept ?_⟩
        · intro name' j hmem
          rcases List.mem_cons.1 hmem with heq | hmem
          · -- the first answer is held from then on
            cases heq
            have hfirst : c₁.Holds contract [(name, i)] := by
              rintro name' j hmem
              cases List.mem_singleton.1 hmem
              exact hanswer
            exact hkept hfirst name i (List.mem_singleton.2 rfl)
          · exact hfound name' j hmem
        · have hnext := h.holds_resolve hearlier name
          rw [hres] at hnext
          exact hnext

/-- **Names of which one refuses**: those before it all answer, and it is the last that is asked. -/
theorem resolveEach_error (contract : Contract) (names : List String) :
    ∀ {c c' : Container β} {e : ContainerError},
      c.resolveEach contract names = (.error e, c') →
      ∃ before name after found c₁, names = before ++ name :: after ∧
        c.resolveEach contract before = (.ok found, c₁) ∧
        c₁.resolve contract name = (.error e, c') ∧
        c.resolveEach contract (before ++ [name]) = (.error e, c') := by
  induction names with
  | nil => intro c c' e hall; cases hall
  | cons first rest ih =>
    intro c c' e hall
    rcases resolveEach_cases c contract first rest with
      ⟨e', c₁, hres, heach⟩ | ⟨i, c₁, hres, heach⟩ <;> rw [heach] at hall
    · cases hall
      exact ⟨[], first, rest, [], c, rfl, rfl, hres, by simp [resolveEach, hres]⟩
    · rcases hrest : c₁.resolveEach contract rest with ⟨e' | found, c₂⟩ <;> rw [hrest] at hall
      · cases hall
        obtain ⟨before, name, after, found, c₃, rfl, hbefore, hname, hlast⟩ := ih hrest
        refine ⟨first :: before, name, after, (first, i) :: found, c₃, rfl, ?_, hname, ?_⟩
        · simp only [resolveEach, hres, hbefore]
        · simp only [List.cons_append, resolveEach, hres, hlast]
      · cases hall

/-! ## Every run -/

/-- What is left where one of the names refuses. -/
structure StopsAt (c : Container β) (contract : Contract) (e : ContainerError) (c' : Container β)
    (before : List String) (name : String) (after : List String) : Prop where
  names : c.names contract = before ++ name :: after
  /-- Those before it answer, it refuses, and the singletons among those before it go on holding
  what they answered. -/
  answered : ∃ found c₁, c.resolveEach contract before = (.ok found, c₁) ∧
    c₁.resolve contract name = (.error e, c') ∧ found.map (·.1) = before ∧
    c'.Holds contract found
  /-- It holds nothing. -/
  refused : ∃ b, c'.find? contract name = some b ∧ b.materialized = false
  /-- Those after it are what they were, unless a factory before them gets at them, -/
  spared : ∀ later ∈ after, (∀ asked ∈ before ++ [name],
    ¬ Relation.ReflTransGen c.Needs (contract.key asked) (contract.key later)) →
    c'.find? contract later = c.find? contract later
  /-- which none does that asks for nothing. -/
  unaided : (∀ b ∈ c.bindings, b.factory.Unaided) → ∀ later ∈ after,
    c'.find? contract later = c.find? contract later

theorem not_needs_of_unaided (h : ∀ b ∈ c.bindings, b.factory.Unaided) (key key' : BindingKey) :
    ¬ c.Needs key key' := by
  rintro ⟨b, hb, htarget⟩
  have hunaided := h b (mem_of_get? hb)
  cases hfactory : b.factory <;> rw [hfactory] at hunaided htarget
  · cases htarget
  · cases htarget
  · exact hunaided
  · exact hunaided
  · exact hunaided

theorem Reached.stopsAt (h : c.Reached) {e : ContainerError}
    (hall : c.resolveAll contract = (.error e, c')) :
    ∃ before name after, c.StopsAt contract e c' before name after := by
  rw [resolveAll_eq_resolveEach] at hall
  obtain ⟨before, name, after, found, c₁, hnames, hbefore, hname, hlast⟩ :=
    resolveEach_error contract _ hall
  obtain ⟨hreached, hfound, hheld, -⟩ := Reached.resolveEach_ok contract before h hbefore
  have hlisted : name ∈ c.names contract := by simp [hnames]
  have hspared : ∀ later ∈ after, (∀ asked ∈ before ++ [name],
      ¬ Relation.ReflTransGen c.Needs (contract.key asked) (contract.key later)) →
      c'.find? contract later = c.find? contract later := by
    intro later _ hnot
    have hkept := get?_resolveEach_of_not_needed hnot
    rwa [hlast] at hkept
  refine ⟨before, name, after, hnames, ⟨found, c₁, hbefore, hname, hfound, ?_⟩, ?_, hspared, ?_⟩
  · have hkept := hreached.holds_resolve hheld name
    rwa [hname] at hkept
  · have hthere := find?_isSome_resolveEach before (find?_isSome_of_mem_names hlisted)
    rw [hbefore] at hthere
    have hrefused := hreached.unmaterialized_of_refused hthere (by rw [hname])
    rwa [hname] at hrefused
  · intro hunaided later hlater
    refine hspared later hlater fun asked hasked hreach => ?_
    -- nothing is needed, so the later name would have to be one of those before it
    have hsame : contract.key asked = contract.key later := by
      rcases hreach.cases_head with heq | ⟨_, hneeds, -⟩
      · exact heq
      · exact absurd hneeds (not_needs_of_unaided hunaided _ _)
    have hnodup := c.nodup_names contract
    rw [hnames, List.append_cons, List.nodup_append] at hnodup
    exact hnodup.2.2 asked hasked later hlater (Contract.key_eq_iff.1 hsame).2

end Container

/-- **Resolving all implementations of a contract is resolving each in turn.** After every run of
calls, whatever the factories make, resolve, register or fail at: the answer and the container left
behind are those of resolving the names in their order, up to the first that is refused. Where all
answer, the singletons hold what they answered; where one refuses, so do those before it, it holds
nothing, and those after it are not asked. The factories resolve and register in an order that is
laid down beforehand (`Factory`), and may fail on any of their runs. -/
theorem resolveAll_of_every_run (calls : List (ContainerCall β)) (contract : Contract) :
    let c := (Container.empty.run calls).2
    c.resolveAll contract = c.resolveEach contract (c.names contract) ∧
    (∀ found c', c.resolveAll contract = (.ok found, c') →
      found.map (·.1) = c.names contract ∧ c'.Holds contract found) ∧
    ∀ e c', c.resolveAll contract = (.error e, c') →
      ∃ before name after, c.StopsAt contract e c' before name after := by
  intro c
  have hreached : c.Reached := ⟨calls, rfl⟩
  have hsame := c.resolveAll_eq_resolveEach contract
  refine ⟨hsame, fun found c' hall => ?_, fun e c' hall => hreached.stopsAt hall⟩
  rw [hsame] at hall
  obtain ⟨-, hnames, hheld, -⟩ := Container.Reached.resolveEach_ok contract _ hreached hall
  exact ⟨hnames, hheld⟩

end ModularHost
