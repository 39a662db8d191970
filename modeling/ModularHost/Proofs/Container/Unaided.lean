import ModularHost.Proofs.Container.Lifetime
import ModularHost.Proofs.Container.Outright
/-!
# Factories that ask for nothing

Where no factory asks the container for anything and none is running, a resolution is a matter of
the one binding it finds: a binding that is not there is reported, one that holds its instance hands
it out, and any other has its factory run once, which it answers for (`Unaided.resolution`). No
other binding is touched. Every call keeps a container so, as long as what it registers asks for
nothing either (`Unaided.run`).
-/


namespace ModularHost

variable {β : Type}

/-- The factory comes to its end without asking the container for anything. -/
def Factory.Unaided : Factory β → Prop
  | .make _ | .build _ => True
  | .resolve .. | .register .. | .registerInstance .. => False

/-- A binding at rest, whose factory asks for nothing. -/
structure Binding.Unaided (b : Binding β) : Prop where
  idle : b.busy = false
  factory : b.factory.Unaided
  /-- Only singletons keep what they make. -/
  transient : b.lifetime = .transient → b.cell = none

/-- A binding as it was registered. -/
def Binding.unused (b : Binding β) : Binding β := .new b.contract b.name b.lifetime b.factory

/-- A call that registers something. -/
def ContainerCall.Registers : ContainerCall β → Prop
  | .register .. | .registerInstance .. | .registerNew .. => True
  | _ => False

/-- A call that registers nothing but factories that ask for nothing. -/
def ContainerCall.Unaided : ContainerCall β → Prop
  | .register _ _ _ factory => factory.Unaided
  | _ => True

namespace Container

variable {c c' : Container β} {b b' : Binding β} {contract : Contract} {name : String}

/-- What has been registered, in order. -/
def registered (c : Container β) : List (Binding β) := c.bindings.map (·.unused)

/-- No factory asks for anything, and none is running. -/
def Unaided (c : Container β) : Prop := ∀ b ∈ c.bindings, b.Unaided

/-- The factory of a binding has been run once, and nothing has become of any other binding. -/
structure RanOnce (c : Container β) (b b' : Binding β) (c' : Container β) : Prop where
  bindings : c'.bindings = c.bindings.map fun x => if x.key = b.key then b' else x
  runs : b'.runs = b.runs + 1
  same : b'.contract = b.contract ∧ b'.name = b.name ∧ b'.lifetime = b.lifetime ∧
    b'.factory = b.factory
  idle : b'.busy = false

/-- **What a resolution comes to**, and what it leaves. -/
inductive Resolution (c : Container β) (contract : Contract) (name : String) :
    Except ContainerError (Instance β) → Container β → Prop
  | unresolved : c.find? contract name = none →
    Resolution c contract name (.error (.unresolvedName contract.name name)) c
  | held {b : Binding β} {i : Instance β} : c.find? contract name = some b →
    b.lifetime = .singleton → b.held? = some i → Resolution c contract name (.ok i) c
  | failed {b b' : Binding β} {c' : Container β} {reason : String} :
    c.find? contract name = some b → b.materialized = false → c.RanOnce b b' c' →
    b'.materialized = false →
    Resolution c contract name (.error (.constructionFailed b.contract.name b.name reason)) c'
  | made {b b' : Binding β} {c' : Container β} {i : Instance β} :
    c.find? contract name = some b → b.materialized = false → c.RanOnce b b' c' →
    (b.lifetime = .singleton → b'.held? = some i) →
    (b.lifetime = .transient → b'.materialized = false) →
    Resolution c contract name (.ok i) c'

/-! ## One run of a factory -/

/-- A factory that asks for nothing only counts its run. -/
theorem attempt_of_unaided (h : b.factory.Unaided) (c : Container β) :
    (∃ reason, c.attempt b = (.error (.failed reason), c.start b.key)) ∨
      ∃ product, c.attempt b = (.ok product, c.start b.key) := by
  unfold attempt
  cases hfactory : b.factory with
  | make body => exact .inr ⟨.fresh body, rfl⟩
  | build produce =>
    rcases hproduce : produce b.runs [] with reason | product
    · exact .inl ⟨reason, by simp [Factory.run, hproduce, Except.mapError]⟩
    · exact .inr ⟨product, by simp [Factory.run, hproduce, Except.mapError]⟩
  | resolve | register | registerInstance =>
    rw [hfactory] at h
    exact h.elim

/-- A binding that is changed in place of its key. -/
theorem map_change_of_get? (hb : c.get? b.key = some b) (after : Binding β → Binding β) :
    (c.bindings.map fun x => if x.key = b.key then after x else x) =
      c.bindings.map fun x => if x.key = b.key then after b else x := by
  refine List.map_congr_left fun x hx => ?_
  by_cases hkey : x.key = b.key
  · rw [if_pos hkey, if_pos hkey, eq_of_key_eq hb hx hkey]
  · rw [if_neg hkey, if_neg hkey]

theorem bindings_start (c : Container β) (key : BindingKey) :
    (c.start key).bindings = c.bindings.map fun x => if x.key = key then x.start else x :=
  bindings_update

theorem bindings_produce (c : Container β) (product : Product β) :
    (c.produce product).2.bindings = c.bindings := by
  cases product <;> rfl

/-- A second change of the same binding comes after the first. -/
theorem map_change_map_change {key : BindingKey} {f g : Binding β → Binding β}
    (hf : ∀ b, (f b).key = b.key) (l : List (Binding β)) :
    ((l.map fun x => if x.key = key then f x else x).map fun x => if x.key = key then g x else x) =
      l.map fun x => if x.key = key then g (f x) else x := by
  rw [List.map_map]
  refine List.map_congr_left fun x _ => ?_
  by_cases hkey : x.key = key <;> simp [hkey, hf]

/-- A run that made nothing. -/
theorem ranOnce_released (hb : c.get? b.key = some b) :
    c.RanOnce b b.start.release ((c.start b.key).release b.key) where
  bindings := by
    rw [release, bindings_update, bindings_start, map_change_map_change Binding.key_start]
    exact map_change_of_get? hb fun x => x.start.release
  runs := rfl
  same := ⟨rfl, rfl, rfl, rfl⟩
  idle := rfl

/-- A run whose instance is kept. -/
theorem ranOnce_kept (hb : c.get? b.key = some b) (product : Product β) (i : Instance β) :
    c.RanOnce b (b.start.hold i) (((c.start b.key).produce product).2.keep b.key i) where
  bindings := by
    rw [keep, bindings_update, bindings_produce, bindings_start,
      map_change_map_change Binding.key_start]
    exact map_change_of_get? hb fun x => x.start.hold i
  runs := rfl
  same := ⟨rfl, rfl, rfl, rfl⟩
  idle := rfl

/-- A run whose instance is not kept. -/
theorem ranOnce_passed (hb : c.get? b.key = some b) (hl : b.lifetime = .transient)
    (product : Product β) : c.RanOnce b b.start ((c.start b.key).produce product).2 where
  bindings := by
    rw [bindings_produce, bindings_start]
    exact map_change_of_get? hb Binding.start
  runs := rfl
  same := ⟨rfl, rfl, rfl, rfl⟩
  idle := by simp [Binding.start, hl]

/-- **A resolution is a matter of the one binding it finds.** -/
theorem Unaided.resolution (h : c.Unaided) (contract : Contract) (name : String) :
    c.Resolution contract name (c.resolve contract name).1 (c.resolve contract name).2 := by
  cases hf : c.find? contract name with
  | none =>
    rw [resolve_of_find?_eq_none hf]
    exact .unresolved hf
  | some b =>
    have hget := get?_of_find? hf
    have hb := h b (mem_of_get? hget)
    rcases held_or_unheld b with ⟨hl, made, hcell⟩ | hu
    · rw [resolve_of_held hf hl hcell]
      exact .held hf hl (by simp [Binding.held?, hcell])
    · -- nothing is held, so the factory is run, and that is all that happens
      have hcell : b.cell = none := by
        cases hl : b.lifetime with
        | singleton => exact hu hl
        | transient => exact hb.transient hl
      have hunmade : b.materialized = false := by simp [Binding.materialized, hcell]
      rw [resolve_eq_conclude hf hu hb.idle]
      rcases attempt_of_unaided hb.factory c with ⟨reason, hrun⟩ | ⟨product, hrun⟩ <;> rw [hrun]
      · exact .failed hf hunmade (ranOnce_released hget) hunmade
      · cases hl : b.lifetime with
        | singleton =>
          simp only [conclude, hl]
          refine .made hf hunmade (ranOnce_kept hget product _) (fun _ => rfl) fun ht => ?_
          rw [hl] at ht
          cases ht
        | transient =>
          simp only [conclude, hl]
          refine .made hf hunmade (ranOnce_passed hget hl product) (fun hs => ?_) fun _ => hunmade
          rw [hl] at hs
          cases hs

/-! ## Calls -/

theorem unaided_empty : (empty : Container β).Unaided := by
  simp [Unaided, bindings_empty]

/-- What was run once is at rest again. -/
theorem Unaided.ranOnce (h : c.Unaided) (hf : c.find? contract name = some b)
    (hran : c.RanOnce b b' c') (hcell : b.lifetime = .transient → b'.materialized = false) :
    c'.Unaided := by
  intro y hy
  rw [hran.bindings] at hy
  obtain ⟨x, hx, rfl⟩ := List.mem_map.1 hy
  by_cases hkey : x.key = b.key
  · obtain ⟨-, -, hlifetime, hfactory⟩ := hran.same
    rw [if_pos hkey]
    refine ⟨hran.idle, hfactory ▸ (h b (mem_of_get? (get?_of_find? hf))).factory, fun ht => ?_⟩
    simpa [Binding.materialized] using hcell (hlifetime ▸ ht)
  · rw [if_neg hkey]
    exact h x hx

theorem Unaided.of_resolution (h : c.Unaided) {answer : Except ContainerError (Instance β)}
    (hres : c.Resolution contract name answer c') : c'.Unaided := by
  cases hres with
  | unresolved | held => exact h
  | failed hf _ hran hunmade => exact h.ranOnce hf hran fun _ => hunmade
  | made hf _ hran _ htransient => exact h.ranOnce hf hran htransient

theorem RanOnce.registered (hran : c.RanOnce b b' c') (hb : c.get? b.key = some b) :
    c'.registered = c.registered := by
  obtain ⟨hcontract, hname, hlifetime, hfactory⟩ := hran.same
  rw [Container.registered, hran.bindings, List.map_map]
  refine List.map_congr_left fun x hx => ?_
  by_cases hkey : x.key = b.key
  · simp [eq_of_key_eq hb hx hkey, Binding.unused, hcontract, hname, hlifetime, hfactory]
  · simp [hkey]

theorem Resolution.registered {answer : Except ContainerError (Instance β)}
    (hres : c.Resolution contract name answer c') : c'.registered = c.registered := by
  cases hres with
  | unresolved | held => rfl
  | failed hf _ hran => exact hran.registered (get?_of_find? hf)
  | made hf _ hran => exact hran.registered (get?_of_find? hf)

theorem Unaided.add (h : c.Unaided) (hb : b.Unaided) (hadd : c.add b = .ok c') : c'.Unaided := by
  intro x hx
  rw [bindings_add hadd] at hx
  rcases List.mem_append.1 hx with hx | hx
  · exact h x hx
  · exact List.mem_singleton.1 hx ▸ hb

theorem Unaided.materializeAll (contract : Contract) (names : List String) :
    ∀ {c : Container β}, c.Unaided →
      (c.materializeAll contract (names.map contract.key)).2.Unaided ∧
        (c.materializeAll contract (names.map contract.key)).2.registered = c.registered := by
  induction names with
  | nil => intro c h; exact ⟨h, rfl⟩
  | cons first rest ih =>
    intro c h
    have hresolution := h.resolution contract first
    rw [List.map_cons]
    rcases materializeAll_cases c contract (contract.key first) (rest.map contract.key) with
      ⟨-, hall, -⟩ | ⟨b, e, hf, -, hall, -⟩ | ⟨b, i, c', hf, hres, hall, -⟩ <;> rw [hall]
    · exact ih h
    · rw [← resolve_eq_materialize hf]
      exact ⟨h.of_resolution hresolution, hresolution.registered⟩
    · rw [← resolve_eq_materialize hf] at hres
      rw [hres] at hresolution
      obtain ⟨hkept, hregistered⟩ := ih (h.of_resolution hresolution)
      exact ⟨hkept, hregistered.trans hresolution.registered⟩

/-- **A call keeps a container as it is in this**, if what it registers asks for nothing. -/
theorem Unaided.perform (h : c.Unaided) {call : ContainerCall β} (hcall : call.Unaided) :
    (c.perform call).2.Unaided := by
  have hregistered : ∀ (c₀ : Container β) (b : Binding β), c₀.Unaided → b.Unaided →
      (ContainerAnswer.ofRegistered c (c₀.add b) : ContainerAnswer β × Container β).2.Unaided := by
    intro c₀ b hc₀ hb
    rcases hadd : c₀.add b with e | c'
    · exact h
    · exact hc₀.add hb hadd
  have hinstance : ∀ contract name (i : Instance β),
      (Binding.ofInstance contract name i).Unaided := fun _ _ _ =>
    ⟨rfl, trivial, fun ht => by cases ht⟩
  cases call with
  | register contract name lifetime factory =>
    exact hregistered c _ h ⟨rfl, hcall, fun _ => rfl⟩
  | registerInstance contract name made => exact hregistered c _ h (hinstance contract name made)
  | registerNew contract name body =>
    exact hregistered (c.mint body).2 _ h (hinstance contract name _)
  | resolve contract name => exact h.of_resolution (h.resolution contract name)
  | resolveAll contract =>
    have hall := Unaided.materializeAll contract (c.names contract) h
    rw [← keys_entriesOf] at hall
    exact hall.1
  | contains | names | infos | size => exact h

/-- What has been registered stays, and nothing else comes to it unless a call registers it. -/
theorem Unaided.registered_perform (h : c.Unaided) {call : ContainerCall β}
    (hcall : ¬ call.Registers) : (c.perform call).2.registered = c.registered := by
  cases call with
  | register | registerInstance | registerNew => exact absurd trivial hcall
  | resolve contract name => exact (h.resolution contract name).registered
  | resolveAll contract =>
    have hall := Unaided.materializeAll contract (c.names contract) h
    rw [← keys_entriesOf] at hall
    exact hall.2
  | contains | names | infos | size => rfl

theorem Unaided.run (calls : List (ContainerCall β)) (hcalls : ∀ call ∈ calls, call.Unaided) :
    ∀ {c : Container β}, c.Unaided → (c.run calls).2.Unaided := by
  induction calls with
  | nil => intro c h; exact h
  | cons call rest ih =>
    intro c h
    have hkept := h.perform (hcalls call List.mem_cons_self)
    exact ih (fun later hlater => hcalls later (List.mem_cons_of_mem _ hlater)) hkept

end Container
end ModularHost
