import ModularHost.Proofs.Container.Chain
import Mathlib.Data.List.Chain
/-!
# What a chain does to the bindings

A chain runs factories that have nothing to hand out and are at rest, and no others: a singleton
that holds something, or whose factory is running, is after the chain what it was
(`Completes.get?_of_settled`, `Breaks.get?_of_settled`). A singleton that holds nothing after a
chain that completed was not asked by it (`Completes.get?_of_unmade`).

So where a chain breaks, each singleton on its path has been run once, in vain, and is for the rest
what it was (`Breaks.failed_once`). The path leads from what was asked, each binding on it resolved
by the factory of the one before (`Breaks.isChain`).
-/


namespace ModularHost
namespace Container

variable {β : Type} {c c' c₁ : Container β} {key : BindingKey} {b x : Binding β}
  {asks : List (Contract × String)} {found : List (Instance β)} {path : List BindingKey}
  {e : ContainerError}

/-! ## What is left alone -/

theorem get?_start_of_ne {key' : BindingKey} (h : key ≠ key') :
    (c.start key').get? key = c.get? key := by
  rw [start, get?_update, if_neg h]

/-- A binding that is about to be run is at rest, and no other is found under its key. -/
theorem ne_of_settled {contract : Contract} {name : String} (hf : c.find? contract name = some b)
    (hu : b.Unheld) (hb : b.busy = false) (hx : c.get? key = some x)
    (hsettled : x.busy = true ∨ ¬ x.Unheld) : key ≠ b.key := by
  rintro rfl
  cases hx.symm.trans (get?_of_find? hf)
  rcases hsettled with hbusy | hheld
  · rw [hb] at hbusy
    cases hbusy
  · exact hheld hu

/-- **A chain leaves alone what is running, and what holds something.** -/
theorem Completes.get?_of_settled (h : c.Completes asks found c') :
    c.get? key = some x → (x.busy = true ∨ ¬ x.Unheld) → c'.get? key = some x := by
  induction h with
  | nil => exact fun hx _ => hx
  | held _ _ _ _ ih => exact ih
  | made hf hu hb _ _ _ ihneeded ihrest =>
    intro hx hsettled
    have hne := ne_of_settled hf hu hb hx hsettled
    have hneeded := ihneeded ((get?_start_of_ne hne).trans hx) hsettled
    exact ihrest ((get?_conclude_of_ne hne _ _).trans hneeded) hsettled

theorem Breaks.get?_of_settled (h : c.Breaks asks path e c') :
    c.get? key = some x → (x.busy = true ∨ ¬ x.Unheld) → c'.get? key = some x := by
  induction h with
  | unbound => exact fun hx _ => hx
  | itself hf hu hb hneeded =>
    intro hx hsettled
    have hne := ne_of_settled hf hu hb hx hsettled
    rw [release, get?_update, if_neg hne]
    exact hneeded.get?_of_settled ((get?_start_of_ne hne).trans hx) hsettled
  | beneath hf hu hb _ ih =>
    intro hx hsettled
    have hne := ne_of_settled hf hu hb hx hsettled
    rw [release, get?_update, if_neg hne]
    exact ih ((get?_start_of_ne hne).trans hx) hsettled
  | later hfirst _ ih =>
    intro hx hsettled
    exact ih (hfirst.get?_of_settled hx hsettled) hsettled

/-- A singleton whose factory begins to run. -/
theorem get?_start_self (hget : c.get? b.key = some b) :
    (c.start b.key).get? b.key = some b.start := by
  rw [start, get?_update, if_pos rfl, hget, Option.map_some]

theorem busy_start (hl : b.lifetime = .singleton) : b.start.busy = true := by
  simp [Binding.start, hl]

/-- **What holds nothing after a chain that completed was not asked.** -/
theorem Completes.get?_of_unmade (h : c.Completes asks found c') :
    c'.get? key = some x → x.lifetime = .singleton → x.cell = none → c.get? key = some x := by
  induction h with
  | nil => exact fun hx _ _ => hx
  | held _ _ _ _ ih => exact ih
  | @made c c₁ c' contract name b product rest needed found hf hu hb hneeded hfinish hrest
      ihneeded ihrest =>
    intro hx hl hcell
    have hafter := ihrest hx hl hcell
    by_cases hkey : key = b.key
    · -- it has just been made
      subst hkey
      have hget := get?_of_find? hf
      obtain ⟨x', hx', -, hl', -⟩ := (shaped_conclude (.ok product) hget hb hneeded.shaped
        (by simp)).find? hafter
      cases hx'.symm.trans hget
      have hlife : b.lifetime = .singleton := hl'.trans hl
      have hrunning := hneeded.get?_of_settled (get?_start_self hget) (.inl (busy_start hlife))
      simp only [conclude, hlife, keep, get?_update, get?_produce, if_true, hrunning,
        Option.map_some, Option.some.injEq] at hafter
      rw [← hafter] at hcell
      cases hcell
    · rw [get?_conclude_of_ne hkey] at hafter
      rw [← get?_start_of_ne hkey]
      exact ihneeded hafter hl hcell

/-! ## The path -/

/-- A factory's run that ends in nothing leaves a singleton as it was, but for the count. -/
theorem get?_released (hget : c₁.get? b.key = some b.start) (hb : b.busy = false) :
    (c₁.release b.key).get? b.key = some { b with runs := b.runs + 1 } := by
  rw [release, get?_update, if_pos rfl, hget, Option.map_some]
  simp [Binding.start, Binding.release, hb]

/-- **Every singleton on the path has been run once, in vain.** -/
theorem Breaks.failed_once (h : c.Breaks asks path e c') :
    ∀ key ∈ path, ∃ b, c.get? key = some b ∧ (b.lifetime = .singleton →
      b.cell = none ∧ b.busy = false ∧ c'.get? key = some { b with runs := b.runs + 1 }) := by
  induction h with
  | unbound => exact fun _ hmem => absurd hmem List.not_mem_nil
  | @itself c c₁ contract name reason b rest needed hf hu hb hneeded hfinish =>
    intro key hmem
    rw [List.mem_singleton] at hmem
    subst hmem
    have hget := get?_of_find? hf
    refine ⟨b, hget, fun hl => ⟨hu hl, hb, get?_released ?_ hb⟩⟩
    exact hneeded.get?_of_settled (get?_start_self hget) (.inl (busy_start hl))
  | @beneath c c₁ contract name b rest path e hf hu hb hneeded ih =>
    have hget := get?_of_find? hf
    refine List.forall_mem_cons.2 ⟨⟨b, hget, fun hl => ⟨hu hl, hb, get?_released ?_ hb⟩⟩, ?_⟩
    · exact hneeded.get?_of_settled (get?_start_self hget) (.inl (busy_start hl))
    · intro key hmem
      obtain ⟨x, hx, hfailed⟩ := ih key hmem
      by_cases hkey : key = b.key
      · -- a singleton whose factory is running is not begun again
        subst hkey
        cases hx.symm.trans (get?_start_self hget)
        refine ⟨b, hget, fun hl => ?_⟩
        have hidle := (hfailed hl).2.1
        rw [busy_start hl] at hidle
        cases hidle
      · rw [get?_start_of_ne hkey] at hx
        refine ⟨x, hx, fun hl => ?_⟩
        obtain ⟨hcell, hidle, hafter⟩ := hfailed hl
        refine ⟨hcell, hidle, ?_⟩
        rw [release, get?_update, if_neg hkey, hafter]
  | later hfirst hrest ih =>
    intro key hmem
    obtain ⟨x, hx, hfailed⟩ := ih key hmem
    obtain ⟨b, hb, -, hlife, -⟩ := hfirst.shaped.find? hx
    refine ⟨b, hb, fun hl => ?_⟩
    obtain ⟨hcell, hidle, hafter⟩ := hfailed (hlife ▸ hl)
    cases hb.symm.trans (hfirst.get?_of_unmade hx (hlife ▸ hl) hcell)
    exact ⟨hcell, hidle, hafter⟩

/-- What a factory gets at is for good. -/
theorem Shaped.needs_iff (h : Shaped c c') {key' : BindingKey} :
    c'.Needs key key' ↔ c.Needs key key' := by
  constructor
  · rintro ⟨x, hx, htarget⟩
    obtain ⟨b, hb, hfactory, -⟩ := h.find? hx
    exact ⟨b, hb, hfactory ▸ htarget⟩
  · rintro ⟨x, hx, htarget⟩
    have hback : Shaped c' c := fun key => (h key).symm
    obtain ⟨b, hb, hfactory, -⟩ := hback.find? hx
    exact ⟨b, hb, hfactory ▸ htarget⟩

theorem needs_start_iff {key' other : BindingKey} :
    (c.start other).Needs key key' ↔ c.Needs key key' := by
  simp only [Needs, start, get?_update]
  split
  · simp only [Option.map_eq_some_iff]
    constructor
    · rintro ⟨_, ⟨b, hb, rfl⟩, htarget⟩
      exact ⟨b, hb, htarget⟩
    · rintro ⟨b, hb, htarget⟩
      exact ⟨b.start, ⟨b, hb, rfl⟩, htarget⟩
  · rfl

/-- A factory that only resolves gets at what it asks for. -/
theorem OnlyResolves.needs_of_mem_asks (hc : c.OnlyResolves) (hget : c.get? b.key = some b)
    {ask : Contract × String} (hmem : ask ∈ b.factory.asks) :
    c.Needs b.key (ask.1.key ask.2) := by
  refine ⟨b, hget, ?_⟩
  rw [Factory.targets_of_onlyResolves (hc b.key b hget)]
  exact List.mem_map_of_mem hmem

/-- **The path leads from what was asked**, each binding on it resolved by the one before. -/
theorem Breaks.isChain (h : c.Breaks asks path e c') : c.OnlyResolves →
    path.IsChain c.Needs ∧ ∀ first ∈ path.head?, ∃ ask ∈ asks, ask.1.key ask.2 = first := by
  induction h with
  | unbound => exact fun _ => ⟨.nil, by simp⟩
  | @itself c c₁ contract name reason b rest needed hf hu hb hneeded hfinish =>
    refine fun _ => ⟨.singleton _, fun first hfirst => ⟨_, List.mem_cons_self, ?_⟩⟩
    cases hfirst
    exact (key_of_find? hf).symm
  | @beneath c c₁ contract name b rest path e hf hu hb hneeded ih =>
    intro hc
    obtain ⟨hchain, hhead⟩ := ih (hc.start b.key)
    have hbeneath : path.IsChain c.Needs := hchain.imp fun _ _ => needs_start_iff.1
    refine ⟨hbeneath.cons fun first hfirst => ?_, fun first hfirst => ?_⟩
    · obtain ⟨ask, hmem, rfl⟩ := hhead first hfirst
      exact hc.needs_of_mem_asks (get?_of_find? hf) hmem
    · cases hfirst
      exact ⟨_, List.mem_cons_self, (key_of_find? hf).symm⟩
  | later hfirst hrest ih =>
    intro hc
    obtain ⟨hchain, hhead⟩ := ih (hc.of_shaped hfirst.shaped)
    refine ⟨hchain.imp fun _ _ => hfirst.shaped.needs_iff.1, fun first hmem => ?_⟩
    obtain ⟨ask, hask, hkey⟩ := hhead first hmem
    exact ⟨ask, List.mem_cons_of_mem _ hask, hkey⟩

end Container
end ModularHost
