import ModularHost.Proofs.Container.Broken
import Mathlib.Data.List.Perm.Subperm
/-!
# Bindings that do not need themselves

Where factories only resolve, and no binding needs itself through them, a resolution comes to an
end: the factories that are under way are all different, and each of them waits for the one that is
asked next, so none of them can be that one, and there are no more of them than bindings
(`Waiting.resolveWithin_ne_endless`). So a resolution is a chain that completes or breaks, and every
chain is what the resolution comes to (`AtRest.resolve_eq_ok_iff`, `AtRest.resolve_eq_error_iff`).

All calls keep a container so, as long as what they register only resolves and closes no circle
(`AtRest.run`).
-/


namespace ModularHost

variable {β : Type}

theorem Factory.one_le_weight (f : Factory β) : 1 ≤ f.weight := by
  cases f <;> simp only [weight] <;> omega

theorem Factory.length_le_totalWeight (factories : List (Factory β)) :
    factories.length ≤ totalWeight factories := by
  induction factories with
  | nil => exact Nat.le_refl 0
  | cons f rest ih =>
    have hfirst := f.one_le_weight
    simp only [totalWeight, List.length_cons, List.foldr_cons] at ih ⊢
    omega

/-- A call that registers no factory but one that only resolves. -/
def ContainerCall.OnlyResolves : ContainerCall β → Prop
  | .register _ _ _ factory => factory.OnlyResolves
  | _ => True

namespace Container

variable {c c' : Container β} {key key' : BindingKey} {b : Binding β} {contract : Contract}
  {name : String} {above : List BindingKey}

/-- No binding needs itself, directly or through others. -/
def Acyclic (c : Container β) : Prop := ∀ key, ¬ Relation.TransGen c.Needs key key

theorem Acyclic.mono (h : c'.Acyclic) (hneeds : ∀ key key', c.Needs key key' → c'.Needs key key') :
    c.Acyclic := fun key hcycle => h key (Relation.TransGen.mono hneeds key key hcycle)

theorem mem_entries_of_get? (hget : c.get? key = some b) :
    ∃ e ∈ c.entries, e.key = key ∧ e.binding = b := by
  obtain ⟨e, he, rfl⟩ := Option.map_eq_some_iff.1 hget
  exact ⟨e, List.mem_of_find?_eq_some he, by simpa using List.find?_some he, rfl⟩

/-- **Bindings in ranks**: where each gets at lower ones only, none needs itself. -/
theorem acyclic_of_rank (rank : BindingKey → Nat)
    (h : ∀ e ∈ c.entries, ∀ key ∈ e.binding.factory.targets, rank key < rank e.key) :
    c.Acyclic := by
  have hstep : ∀ {key key'}, c.Needs key key' → rank key' < rank key := by
    rintro key key' ⟨b, hget, htarget⟩
    obtain ⟨e, he, rfl, rfl⟩ := mem_entries_of_get? hget
    exact h e he key' htarget
  have hall : ∀ {key key'}, Relation.TransGen c.Needs key key' → rank key' < rank key := by
    intro key key' hreach
    induction hreach with
    | single hneeds => exact hstep hneeds
    | tail _ hneeds ih => exact (hstep hneeds).trans ih
  exact fun key hcycle => Nat.lt_irrefl _ (hall hcycle)

/-- A path of bindings that need each other comes to none twice. -/
theorem Acyclic.nodup (h : c.Acyclic) {path : List BindingKey} (hpath : path.IsChain c.Needs) :
    path.Nodup := by
  have hreach : path.IsChain (Relation.TransGen c.Needs) := hpath.imp fun _ _ => .single
  refine hreach.pairwise.imp ?_
  rintro key _ hcycle rfl
  exact h key hcycle

/-! ## Factories under way -/

/-- Some factories are under way, the innermost first, and a binding is asked next: each of them
waits for it, directly or through others. -/
structure Waiting (c : Container β) (above : List BindingKey) (key : BindingKey) : Prop where
  onlyResolves : c.OnlyResolves
  acyclic : c.Acyclic
  nodup : above.Nodup
  /-- Nobody else's factory is running. -/
  running : ∀ key' b, c.get? key' = some b → b.busy = true → key' ∈ above
  waits : ∀ key' ∈ above, Relation.TransGen c.Needs key' key

theorem Waiting.of_shaped (h : c.Waiting above key) (hshaped : Shaped c c') :
    c'.Waiting above key where
  onlyResolves := h.onlyResolves.of_shaped hshaped
  acyclic := h.acyclic.mono fun _ _ => hshaped.needs_iff.1
  nodup := h.nodup
  running key' x hx hbusy := by
    obtain ⟨b, hb, -, -, hsame⟩ := hshaped.find? hx
    exact h.running key' b hb (hsame.trans hbusy)
  waits key' hmem :=
    Relation.TransGen.mono (fun _ _ => hshaped.needs_iff.2) _ _ (h.waits key' hmem)

/-- What is asked is none of those that wait for it. -/
theorem Waiting.not_mem (h : c.Waiting above key) : key ∉ above := fun hmem =>
  h.acyclic key (h.waits key hmem)

/-- **The factory of what was asked begins to run**, and asks for something in its turn. -/
theorem Waiting.start (h : c.Waiting above b.key) (hget : c.get? b.key = some b)
    {ask : Contract × String} (hmem : ask ∈ b.factory.asks) :
    (c.start b.key).Waiting (b.key :: above) (ask.1.key ask.2) where
  onlyResolves := h.onlyResolves.start b.key
  acyclic := h.acyclic.mono fun _ _ => needs_start_iff.1
  nodup := List.nodup_cons.2 ⟨h.not_mem, h.nodup⟩
  running key' x hx hbusy := by
    by_cases hkey : key' = b.key
    · exact hkey ▸ List.mem_cons_self
    · rw [get?_start_of_ne hkey] at hx
      exact List.mem_cons_of_mem _ (h.running key' x hx hbusy)
  waits key' hkey' := by
    have hneeds := h.onlyResolves.needs_of_mem_asks hget hmem
    have hreach : Relation.TransGen c.Needs key' (ask.1.key ask.2) := by
      rcases List.mem_cons.1 hkey' with rfl | habove
      · exact .single hneeds
      · exact (h.waits key' habove).tail hneeds
    exact Relation.TransGen.mono (fun _ _ => needs_start_iff.2) _ _ hreach

/-- There are no more factories under way than bindings. -/
theorem Waiting.length_le (h : c.Waiting above key) {keys : List BindingKey}
    (hkeys : ∀ key b, c.get? key = some b → key ∈ keys) : above.length ≤ keys.length := by
  refine (List.Nodup.subperm h.nodup fun key' hmem => ?_).length_le
  obtain ⟨_, ⟨b, hb, -⟩, -⟩ := Relation.TransGen.head'_iff.1 (h.waits key' hmem)
  exact hkeys key' b hb

/-- What is gathered comes to an end if each that is asked does, whatever those before it left. -/
theorem gather_ne_endless {resolve : Resolver β} (hunfolds : Unfolds resolve)
    (asks : List (Contract × String)) : ∀ {c : Container β}, c.OnlyResolves →
      (∀ ask ∈ asks, ∀ c', Shaped c c' → (resolve c' ask.1 ask.2).1 ≠ .error .endless) →
      ((access resolve).gather asks c).1 ≠ .error .endless := by
  induction asks with
  | nil => intro c _ _ hall; cases hall
  | cons ask rest ih =>
    intro c hc hends hall
    rcases Access.gather_cons_eq_error_iff.1 (Prod.ext hall rfl) with
      hfirst | ⟨i, c₁, hfirst, hrest⟩
    · exact hends ask List.mem_cons_self c (.refl c) (congrArg Prod.fst hfirst)
    · have hshaped := (hunfolds.completes hc hfirst).shaped
      exact ih (hc.of_shaped hshaped) (fun later hlater c' h' =>
        hends later (List.mem_cons_of_mem _ hlater) c' (hshaped.trans h'))
        (congrArg Prod.fst hrest)

/-- **A resolution comes to an end** where the steps it may take are more than the bindings that are
not under way. -/
theorem Waiting.resolveWithin_ne_endless (keys : List BindingKey) (depth : Nat) :
    ∀ {c : Container β} {above : List BindingKey} {contract : Contract} {name : String},
      c.Waiting above (contract.key name) → (∀ key b, c.get? key = some b → key ∈ keys) →
      keys.length < depth + above.length →
      (resolveWithin depth c contract name).1 ≠ .error .endless := by
  induction depth with
  | zero =>
    intro c above contract name h hkeys hdepth
    have hlength := h.length_le hkeys
    omega
  | succ depth ih =>
    intro c above contract name h hkeys hdepth
    rcases c.find?_cases contract name with
      hf | ⟨b, hf, ⟨hl, i, hi⟩ | ⟨hu, hb⟩ | ⟨hu, hb⟩⟩
    · rw [resolveWithin_of_unbound hf]
      simp
    · rw [resolveWithin_of_held hf hl hi]
      simp
    · -- it would be one of those that wait for it
      exact absurd (h.running _ b hf hb) h.not_mem
    · have hget := get?_of_find? hf
      rw [← key_of_find? hf] at h
      have hgather : ((access (resolveWithin depth)).gather b.factory.asks (c.start b.key)).1 ≠
          .error .endless := by
        refine gather_ne_endless (unfolds_resolveWithin depth) _ (h.onlyResolves.start b.key) ?_
        intro ask hmem c' hshaped
        refine ih ((h.start hget hmem).of_shaped hshaped) (fun key x hx => ?_) ?_
        · obtain ⟨x', hx', -⟩ := hshaped.find? hx
          by_cases hkey : key = b.key
          · exact hkeys key b (hkey ▸ hget)
          · exact hkeys key x' ((get?_start_of_ne hkey).symm.trans hx')
        · rw [List.length_cons]
          omega
      rcases hrun : (access (resolveWithin depth)).gather b.factory.asks (c.start b.key) with
        ⟨e | needed, c₁⟩ <;> rw [resolveWithin_of_idle h.onlyResolves hf hu hb hrun]
      · have he : e ≠ .endless := fun he => hgather (by rw [hrun, he])
        simp [Factory.outcome, BuildError.ofContainerError_of_ne he, conclude]
      · cases hfinish : b.factory.finish b.runs needed <;>
          simp [Factory.outcome, hfinish, Except.mapError, conclude]

/-! ## Containers at rest -/

/-- No factory registers anything or is running, and no binding needs itself. -/
structure AtRest (c : Container β) : Prop where
  onlyResolves : c.OnlyResolves
  acyclic : c.Acyclic
  idle : ∀ key b, c.get? key = some b → b.busy = false

namespace AtRest

theorem of_shaped (h : c.AtRest) (hshaped : Shaped c c') : c'.AtRest where
  onlyResolves := h.onlyResolves.of_shaped hshaped
  acyclic := h.acyclic.mono fun _ _ => hshaped.needs_iff.1
  idle key x hx := by
    obtain ⟨b, hb, -, -, hsame⟩ := hshaped.find? hx
    exact hsame.symm.trans (h.idle key b hb)

theorem waiting (h : c.AtRest) (key : BindingKey) : c.Waiting [] key where
  onlyResolves := h.onlyResolves
  acyclic := h.acyclic
  nodup := List.nodup_nil
  running key' b hb hbusy := by
    rw [h.idle key' b hb] at hbusy
    cases hbusy
  waits _ hmem := absurd hmem List.not_mem_nil

/-- **Every resolution comes to an end.** -/
theorem resolve_ne_endless (h : c.AtRest) (contract : Contract) (name : String) :
    (c.resolve contract name).1 ≠ .error .endless := by
  refine (h.waiting (contract.key name)).resolveWithin_ne_endless (c.entries.map (·.key)) _
    (fun key b hb => ?_) ?_
  · obtain ⟨e, he, rfl, -⟩ := mem_entries_of_get? hb
    exact List.mem_map_of_mem he
  · have hweight := Factory.length_le_totalWeight (c.entries.map (·.binding.factory))
    simp only [depth, List.length_map, List.length_nil] at hweight ⊢
    omega

theorem gather_ne_endless (h : c.AtRest) (contract : Contract) (name : String) :
    ((access (resolveWithin (c.depth + 1))).gather [(contract, name)] c).1 ≠ .error .endless := by
  intro hall
  rcases Access.gather_cons_eq_error_iff.1 (Prod.ext hall rfl) with hfirst | ⟨i, c₁, -, hnil⟩
  · exact h.resolve_ne_endless contract name (congrArg Prod.fst hfirst)
  · cases hnil

/-- **A resolution succeeds exactly when all constructions behind it do.** -/
theorem resolve_eq_ok_iff (h : c.AtRest) {i : Instance β} :
    c.resolve contract name = (.ok i, c') ↔ c.Completes [(contract, name)] [i] c' := by
  refine ⟨(unfolds_resolveWithin _).completes h.onlyResolves, fun hchain => ?_⟩
  obtain ⟨j, c₁, others, hres, hnil, hfound⟩ := Access.gather_cons_eq_ok_iff.1
    (hchain.gather_eq h.onlyResolves _ (h.gather_ne_endless contract name))
  cases hnil
  cases hfound
  exact hres

/-- **It is refused exactly when one of them fails.** -/
theorem resolve_eq_error_iff (h : c.AtRest) {e : ContainerError} :
    c.resolve contract name = (.error e, c') ↔
      ∃ path, c.Breaks [(contract, name)] path e c' := by
  constructor
  · intro hres
    refine (unfolds_resolveWithin _).breaks h.onlyResolves hres ?_
    rintro rfl
    exact h.resolve_ne_endless contract name (congrArg Prod.fst hres)
  · rintro ⟨path, hchain⟩
    rcases Access.gather_cons_eq_error_iff.1
      (hchain.gather_eq h.onlyResolves _ (h.gather_ne_endless contract name)) with
      hres | ⟨i, c₁, -, hnil⟩
    · exact hres
    · cases hnil

theorem shaped_resolve (h : c.AtRest) (contract : Contract) (name : String) :
    Shaped c (c.resolve contract name).2 := by
  rcases hres : c.resolve contract name with ⟨e | i, c'⟩
  · obtain ⟨path, hchain⟩ := h.resolve_eq_error_iff.1 hres
    exact hchain.shaped
  · exact (h.resolve_eq_ok_iff.1 hres).shaped

theorem resolveEach (contract : Contract) (names : List String) :
    ∀ {c : Container β}, c.AtRest → Shaped c (c.resolveEach contract names).2 ∧
      (c.resolveEach contract names).1 ≠ .error .endless := by
  induction names with
  | nil =>
    intro c _
    refine ⟨.refl c, fun hall => ?_⟩
    cases hall
  | cons name rest ih =>
    intro c h
    have hshaped := h.shaped_resolve contract name
    have hends := h.resolve_ne_endless contract name
    rcases resolveEach_cases c contract name rest with
      ⟨e, c₁, hres, heach⟩ | ⟨i, c₁, hres, heach⟩ <;> rw [hres] at hshaped hends <;> rw [heach]
    · refine ⟨hshaped, fun hall => hends ?_⟩
      cases hall
      rfl
    · obtain ⟨hrest, hends'⟩ := ih (h.of_shaped hshaped)
      refine ⟨hshaped.trans hrest, fun hall => hends' ?_⟩
      rcases hlater : (c₁.resolveEach contract rest).1 with e | found <;> rw [hlater] at hall <;>
        cases hall
      rfl

end AtRest

/-! ## Calls -/

theorem atRest_empty : (empty : Container β).AtRest := by
  refine ⟨fun key b hb => ?_, fun key hcycle => ?_, fun key b hb => ?_⟩
  · cases hb
  · obtain ⟨_, ⟨b, hb, -⟩, -⟩ := Relation.TransGen.head'_iff.1 hcycle
    cases hb
  · cases hb

/-- Whatever happens, a factory gets at what it gets at. -/
theorem Journaled.needs {j : Journal β} (h : Journaled c j c') (hneeds : c.Needs key key') :
    c'.Needs key key' := by
  obtain ⟨b, hb, htarget⟩ := hneeds
  obtain ⟨b', hb', -, hfactory⟩ := h.get? hb
  exact ⟨b', hb', hfactory ▸ htarget⟩

/-- What is registered comes to rest beside the others, if it closes no circle. -/
theorem AtRest.ofRegistered (h : c.AtRest) (c₀ : Container β)
    (hsame : ∀ key, c₀.get? key = c.get? key) (hb : b.busy = false)
    (hfactory : b.factory.OnlyResolves)
    (hacyclic : (ContainerAnswer.ofRegistered c (c₀.add b) :
      ContainerAnswer β × Container β).2.Acyclic) :
    (ContainerAnswer.ofRegistered c (c₀.add b) : ContainerAnswer β × Container β).2.AtRest ∧
    (ContainerAnswer.ofRegistered c (c₀.add b) : ContainerAnswer β × Container β).1 ≠
      .refused .endless := by
  rcases c₀.add_cases b with ⟨-, hadd⟩ | ⟨-, -, hadd⟩ | ⟨-, -, c', hadd, -⟩ <;>
    rw [hadd] at hacyclic ⊢
  · exact ⟨h, by simp [ContainerAnswer.ofRegistered]⟩
  · exact ⟨h, by simp [ContainerAnswer.ofRegistered]⟩
  · refine ⟨⟨fun key x hx => ?_, hacyclic, fun key x hx => ?_⟩,
      by simp [ContainerAnswer.ofRegistered]⟩ <;>
      simp only [ContainerAnswer.ofRegistered, get?_add hadd, hsame] at hx <;>
      split at hx
    · cases hx
      exact hfactory
    · exact h.onlyResolves key x hx
    · cases hx
      exact hb
    · exact h.idle key x hx

/-- **A call leaves a container at rest**, and is answered. -/
theorem AtRest.perform (h : c.AtRest) {call : ContainerCall β} (hcall : call.OnlyResolves)
    (hacyclic : (c.perform call).2.Acyclic) :
    (c.perform call).2.AtRest ∧ (c.perform call).1 ≠ .refused .endless := by
  cases call with
  | register contract name lifetime factory =>
    exact h.ofRegistered c (fun _ => rfl) rfl hcall hacyclic
  | registerInstance contract name made =>
    exact h.ofRegistered c (fun _ => rfl) rfl trivial hacyclic
  | registerNew contract name body =>
    exact h.ofRegistered (c.mint body).2 (fun _ => rfl) rfl trivial hacyclic
  | resolve contract name =>
    refine ⟨h.of_shaped (h.shaped_resolve contract name), ?_⟩
    have hends := h.resolve_ne_endless contract name
    simp only [Container.perform, Prod.map_fst]
    rcases hres : (c.resolve contract name).1 with e | i <;> rw [hres] at hends
    · simpa [ContainerAnswer.ofResolved] using hends
    · simp [ContainerAnswer.ofResolved]
  | resolveAll contract =>
    have heach := AtRest.resolveEach contract (c.names contract) h
    rw [← resolveAll_eq_resolveEach] at heach
    refine ⟨h.of_shaped heach.1, ?_⟩
    have hends := heach.2
    simp only [Container.perform, Prod.map_fst]
    rcases hres : (c.resolveAll contract).1 with e | found <;> rw [hres] at hends
    · simpa [ContainerAnswer.ofResolvedAll] using hends
    · simp [ContainerAnswer.ofResolvedAll]
  | contains | names | infos | size => exact ⟨h, by simp [Container.perform]⟩

/-- **A run of calls leaves a container at rest**, and each of them is answered. -/
theorem AtRest.run (calls : List (ContainerCall β)) :
    ∀ {c : Container β}, c.AtRest → (∀ call ∈ calls, call.OnlyResolves) →
      (c.run calls).2.Acyclic →
      (c.run calls).2.AtRest ∧ ∀ answer ∈ (c.run calls).1, answer ≠ .refused .endless := by
  induction calls with
  | nil => intro c h _ _; exact ⟨h, fun _ hmem => absurd hmem List.not_mem_nil⟩
  | cons call rest ih =>
    intro c h hcalls hacyclic
    obtain ⟨hcall, hrest⟩ := List.forall_mem_cons.1 hcalls
    -- a circle would still be there at the end
    have hbetween : (c.perform call).2.Acyclic := hacyclic.mono fun _ _ =>
      (journaled_run rest (c.perform call).2).needs
    obtain ⟨hnext, hanswer⟩ := h.perform hcall hbetween
    obtain ⟨hlast, hanswers⟩ := ih hnext hrest hacyclic
    exact ⟨hlast, List.forall_mem_cons.2 ⟨hanswer, hanswers⟩⟩

/-! ## What a resolution comes to -/

/-- A singleton holds an instance for good: whatever is called, whoever asks is handed it. -/
def Cached (c : Container β) (key : BindingKey) (i : Instance β) : Prop :=
  ∃ b, c.get? key = some b ∧ b.lifetime = .singleton ∧ b.held? = some i ∧
    ∀ later, (c.run later).2.get? key = some b ∧
      ∀ e ∈ (c.runJournal later).of key, e = .answered .held (.ok i)

theorem Reached.cached (h : c.Reached) (hb : c.get? key = some b) (hl : b.lifetime = .singleton)
    {i : Instance β} (hi : b.held? = some i) : c.Cached key i :=
  ⟨b, hb, hl, hi, fun later => h.get?_of_held hb hl hi (journaled_run later c)⟩

/-- What a singleton has come to in a resolution it holds for good. -/
theorem Reached.cached_of_made (h : c.Reached) (hb : c.get? key = some b)
    (hl : b.lifetime = .singleton) {i : Instance β}
    (hmade : .answered (.made i) (.ok i) ∈ (c.resolveJournal contract name).of key) :
    (c.resolve contract name).2.Cached key i := by
  obtain ⟨calls, rfl⟩ := h
  have hbefore := (journaled_run calls .empty).follows key
  have hduring := journaled_resolve (empty.run calls).2 contract name
  obtain ⟨b', hb', hlife, -⟩ := hduring.get? hb
  have hl' : b'.lifetime = .singleton := hlife.trans hl
  have hrecorded := Binding.recorded_of_drives (hb' ▸ hbefore.trans (hduring.follows key))
  have hheld := (hrecorded.singleton hl').same _ i (List.mem_append_right _ hmade)
  exact Reached.cached (Reached.resolve ⟨calls, rfl⟩ contract name) hb' hl' hheld

/-- What it held before it holds still. -/
theorem Cached.resolve {i : Instance β} (h : c.Cached key i) (contract : Contract)
    (name : String) : (c.resolve contract name).2.Cached key i := by
  obtain ⟨b, -, hl, hi, hlater⟩ := h
  refine ⟨b, (hlater [.resolve contract name]).1, hl, hi, fun later => ?_⟩
  obtain ⟨hget, hevents⟩ := hlater (.resolve contract name :: later)
  refine ⟨hget, fun e he => hevents e ?_⟩
  simp only [runJournal, Journal.of_append]
  exact List.mem_append_right _ he

/-- The first on the path of what was asked is its binding, if it has one. -/
theorem Breaks.head? {path : List BindingKey} {e : ContainerError}
    (h : c.Breaks [(contract, name)] path e c') :
    path.head? = (c.find? contract name).map Binding.key := by
  cases h with
  | unbound hf => rw [hf]; rfl
  | itself hf => rw [hf]; rfl
  | beneath hf => rw [hf]; rfl
  | later _ hnone => cases hnone

/-- What is left where a resolution is refused. -/
structure FailsAlong (c : Container β) (contract : Contract) (name : String)
    (path : List BindingKey) (c' : Container β) : Prop where
  /-- The path begins with what was asked, -/
  head : path.head? = (c.find? contract name).map Binding.key
  /-- and each binding on it is resolved by the factory of the one before. -/
  chain : path.IsChain c.Needs
  nodup : path.Nodup
  /-- The singletons on it held nothing and hold nothing, and their factories were run once. -/
  unmade : ∀ key ∈ path, ∃ b, c.get? key = some b ∧ (b.lifetime = .singleton →
    b.cell = none ∧ b.busy = false ∧ c'.get? key = some { b with runs := b.runs + 1 })

/-- **What a resolution comes to**, and what it leaves. -/
structure Unfolding (c : Container β) (contract : Contract) (name : String) : Prop where
  ends : (c.resolve contract name).1 ≠ .error .endless
  succeeds : ∀ i c', c.resolve contract name = (.ok i, c') ↔
    c.Completes [(contract, name)] [i] c'
  fails : ∀ e c', c.resolve contract name = (.error e, c') ↔
    ∃ path, c.Breaks [(contract, name)] path e c'
  along : ∀ path e c', c.Breaks [(contract, name)] path e c' → c.FailsAlong contract name path c'
  /-- What a singleton came to on the way it holds for good, -/
  made : ∀ key b i, c.get? key = some b → b.lifetime = .singleton →
    .answered (.made i) (.ok i) ∈ (c.resolveJournal contract name).of key →
    (c.resolve contract name).2.Cached key i
  /-- and what it held before. -/
  kept : ∀ key b i, c.get? key = some b → b.lifetime = .singleton → b.held? = some i →
    (c.resolve contract name).2.Cached key i

theorem Reached.unfolding (h : c.Reached) (hc : c.AtRest) (contract : Contract) (name : String) :
    c.Unfolding contract name where
  ends := hc.resolve_ne_endless contract name
  succeeds _ _ := hc.resolve_eq_ok_iff
  fails _ _ := hc.resolve_eq_error_iff
  along path e c' hbreaks := by
    have hchain := (hbreaks.isChain hc.onlyResolves).1
    exact ⟨hbreaks.head?, hchain, hc.acyclic.nodup hchain, hbreaks.failed_once⟩
  made _ _ _ hb hl hmade := h.cached_of_made hb hl hmade
  kept _ _ _ hb hl hi := (h.cached hb hl hi).resolve contract name

end Container

/-- **Resolutions through factories come to an end, and share what they make.** Whatever calls a
container has had, if the factories registered with it only resolve and none needs itself: each call
is answered; each resolution succeeds exactly when all constructions behind it do, and otherwise
fails along a path of bindings that are left with nothing, while all that was made beside it is
kept; and no singleton's factory succeeds twice, on whatever ways it is reached. What a factory
resolves is laid down beforehand, and the first refusal ends its run; what it builds then, or fails
with, may depend on the run and on all it was given. -/
theorem resolutions_unfold (calls : List (ContainerCall β))
    (hcalls : ∀ call ∈ calls, call.OnlyResolves)
    (hacyclic : (Container.empty.run calls).2.Acyclic) :
    (∀ answer ∈ (Container.empty.run calls).1, answer ≠ .refused .endless) ∧
    (∀ contract name, (Container.empty.run calls).2.Unfolding contract name) ∧
    ∀ key b, (Container.empty.run calls).2.get? key = some b → b.lifetime = .singleton →
      ((Container.empty.runJournal calls).of key).countP BindingEvent.isMade ≤ 1 ∧
      ∀ how i, .answered how (.ok i) ∈ (Container.empty.runJournal calls).of key →
        b.held? = some i := by
  obtain ⟨hrest, hanswered⟩ := Container.AtRest.run calls Container.atRest_empty hcalls hacyclic
  refine ⟨hanswered, fun contract name => ?_, fun key b hb hl => ?_⟩
  · exact Container.Reached.unfolding ⟨calls, rfl⟩ hrest contract name
  · have hdrives := (Container.journaled_run calls .empty).follows key
    have honce := (Binding.recorded_of_drives (hb ▸ hdrives)).singleton hl
    have hmade := honce.made
    have hbit : b.held?.isSome.toNat ≤ 1 := Bool.toNat_le _
    exact ⟨by omega, honce.same⟩

def gaugeContract : Contract := ⟨⟨1, "Gauge"⟩, "Gauge"⟩

/-- A report over two tables of one gauge, which is dry when it is first asked. -/
def gaugeReport : List (ContainerCall String) :=
  [.register gaugeContract "clock" .singleton (.make "clock"),
    .register gaugeContract "gauge" .singleton (.resolve gaugeContract "clock"
      (.build fun run _ => if run = 0 then .error "dry" else .ok (.fresh "gauge"))),
    .register gaugeContract "highs" .singleton (.resolve gaugeContract "gauge" (.make "highs")),
    .register gaugeContract "lows" .transient (.resolve gaugeContract "gauge" (.make "lows")),
    .register gaugeContract "report" .singleton (.resolve gaugeContract "highs"
      (.resolve gaugeContract "lows" (.make "report")))]

/-- The clock is the lowest, and the report the highest. -/
def gaugeRank (key : BindingKey) : Nat :=
  ["clock", "gauge", "highs", "lows", "report"].idxOf key.name

/-- The report fails with the gauge, the clock is kept, and the next report is made. -/
theorem resolutions_unfold_gaugeReport :
    (∀ call ∈ gaugeReport, call.OnlyResolves) ∧
    (Container.empty.run gaugeReport).2.Acyclic ∧
    ∃ path e c', (Container.empty.run gaugeReport).2.Breaks [(gaugeContract, "report")] path e c' ∧
      (Container.empty.run gaugeReport).2.FailsAlong gaugeContract "report" path c' ∧
      c'.Cached (gaugeContract.key "clock") ⟨0, "clock"⟩ ∧
      ∃ c'', c'.Completes [(gaugeContract, "report")] [⟨4, "report"⟩] c'' := by
  have hcalls : ∀ call ∈ gaugeReport, call.OnlyResolves := by
    intro call hcall
    simp only [gaugeReport, List.mem_cons, List.not_mem_nil, or_false] at hcall
    rcases hcall with rfl | rfl | rfl | rfl | rfl <;> trivial
  have hacyclic : (Container.empty.run gaugeReport).2.Acyclic :=
    Container.acyclic_of_rank gaugeRank (by decide)
  obtain ⟨-, hunfolds, -⟩ := resolutions_unfold gaugeReport hcalls hacyclic
  have hfirst := hunfolds gaugeContract "report"
  -- the first report is asked for in the run of the second
  have hretried : ∀ call ∈ gaugeReport ++ [.resolve gaugeContract "report"],
      call.OnlyResolves := by
    intro call hcall
    rcases List.mem_append.1 hcall with hcall | hcall
    · exact hcalls call hcall
    · exact List.mem_singleton.1 hcall ▸ trivial
  obtain ⟨-, hunfolds', -⟩ := resolutions_unfold (gaugeReport ++ [.resolve gaugeContract "report"])
    hretried (Container.acyclic_of_rank gaugeRank (by decide))
  have hsecond := hunfolds' gaugeContract "report"
  obtain ⟨path, hbreaks⟩ := (hfirst.fails
    (.constructionFailed "Gauge" "report" (ContainerError.constructionFailed "Gauge" "highs"
      (ContainerError.constructionFailed "Gauge" "gauge" "dry").message).message) _).1 rfl
  refine ⟨hcalls, hacyclic, path, _, _, hbreaks, hfirst.along _ _ _ hbreaks, ?_, ?_⟩
  · exact hfirst.made _ _ _ rfl rfl (List.mem_cons_of_mem _ List.mem_cons_self)
  · exact ⟨_, (hsecond.succeeds ⟨4, "report"⟩ _).1 rfl⟩

end ModularHost
