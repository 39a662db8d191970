import ModularHost.Proofs.Module.Leases
/-!
# When modules are reclaimed

A module is reclaimed when nobody is left to hold its lease. Whatever is loaded, cloned, dropped and
unloaded, in whatever order, the lease counts the live handles, and one more while the context owns
the module (`LeaseRun.CountsHolders.moves`). So an unload can tell by the counts which modules are
held elsewhere, and what it let go of is there until the last handle to it is dropped
(`LeaseRun.leases_counted`).
-/


namespace ModularHost

variable {β : Type}

namespace LeaseRun

variable {r r' : LeaseRun β} {c : LoadContext β} {id : ContextId} {m : LoadedModule β}

/-! ## What every run keeps -/

/-- The leases of a context's modules are numbered through, as the modules joined it. -/
def Numbered (id : ContextId) (ms : List (LoadedModule β)) : Prop :=
  ms.map (·.lease) = (List.range ms.length).map (.mk id)

/-- A context owns what has joined it until it is unloaded; where there is no context, nothing has
joined. -/
def OwnsJoined (id : ContextId) (joined : List (LoadedModule β)) (unloads : Nat) :
    Option (LoadContext β) → Prop
  | none => joined = [] ∧ unloads = 0
  | some c => (c.modules = if unloads = 0 then joined else []) ∧
    (c.unloaded = true ↔ unloads ≠ 0) ∧ Numbered id joined

/-- Every lease counts who holds it, and the contexts own what was loaded into them. -/
structure CountsHolders (r : LeaseRun β) : Prop where
  counted : ∀ lease, r.counts lease =
    r.custody.handlesTo lease + lease.among (r.owned lease.context)
  handles : ∀ m ∈ r.custody.held, m ∈ r.joined m.lease.context
  contexts : ∀ id, OwnsJoined id (r.joined id) (r.unloads id) (r.site.context? id)

theorem countsHolders_start (s : Site β) : (start s).CountsHolders where
  counted _ := rfl
  handles m hm := by cases hm
  contexts _ := ⟨rfl, rfl⟩

namespace Numbered

variable {ms : List (LoadedModule β)}

theorem append (h : Numbered id ms) (hm : m.lease = ⟨id, ms.length⟩) : Numbered id (ms ++ [m]) := by
  unfold Numbered at h ⊢
  simp [h, hm, List.range_succ]

theorem lease_eq (h : Numbered id ms) (hm : m ∈ ms) : ∃ n < ms.length, m.lease = ⟨id, n⟩ := by
  have hlease : m.lease ∈ (List.range ms.length).map (Lease.mk id) := h ▸ List.mem_map_of_mem hm
  obtain ⟨n, hn, hmk⟩ := List.mem_map.1 hlease
  exact ⟨n, List.mem_range.1 hn, hmk.symm⟩

theorem context_eq (h : Numbered id ms) (hm : m ∈ ms) : m.lease.context = id := by
  obtain ⟨n, -, hlease⟩ := h.lease_eq hm
  rw [hlease]

/-- No two modules of a context have a lease in common. -/
theorem among_eq_one (h : Numbered id ms) (hm : m ∈ ms) : m.lease.among ms = 1 := by
  have hnodup : (ms.map (·.lease)).Nodup := by
    rw [h]
    refine List.nodup_range.map_on fun a _ b _ hab => ?_
    simpa using hab
  have hcount := List.count_eq_one_of_mem hnodup (List.mem_map_of_mem hm)
  rwa [List.count, List.countP_map] at hcount

theorem among_eq_zero {lease : Lease} (h : Numbered id ms) (hne : lease.context ≠ id) :
    lease.among ms = 0 := by
  refine Lease.among_eq_zero_iff.2 fun m hm heq => hne ?_
  rw [← heq, h.context_eq hm]

theorem among_eq (h : Numbered id ms) (lease : Lease) :
    lease.among ms = (ms.any fun m => m.lease == lease).toNat := by
  cases hany : ms.any fun m => m.lease == lease with
  | false =>
    refine Lease.among_eq_zero_iff.2 fun m hm => ?_
    simpa using List.any_eq_false.1 hany m hm
  | true =>
    obtain ⟨m, hm, heq⟩ := List.any_eq_true.1 hany
    obtain rfl : m.lease = lease := by simpa using heq
    exact h.among_eq_one hm

end Numbered

theorem owned_eq (h : r.context? id = some c) : r.owned id = c.modules := by
  simp [owned, h]

theorem context?_of_mem_owned (h : m ∈ r.owned id) :
    ∃ c, r.context? id = some c ∧ m ∈ c.modules := by
  cases hc : r.context? id with
  | none => simp [owned, hc] at h
  | some c => exact ⟨c, rfl, owned_eq hc ▸ h⟩

/-- What a context owns is what has joined it, or nothing. -/
theorem owned_or (h : OwnsJoined id (r.joined id) (r.unloads id) (r.site.context? id)) :
    r.owned id = r.joined id ∨ r.owned id = [] := by
  cases hc : r.context? id with
  | none => exact .inr (by simp [owned, hc])
  | some c =>
    obtain ⟨-, hfound, -⟩ := context?_eq_some hc
    rw [hfound] at h
    rw [owned_eq hc, h.1]
    split
    · exact .inl rfl
    · exact .inr rfl

namespace CountsHolders

theorem ownsJoined (h : r.CountsHolders) (hc : r.site.context? id = some c) :
    OwnsJoined id (r.joined id) (r.unloads id) (some c) :=
  hc ▸ h.contexts id

theorem absent (h : r.CountsHolders) (id : ContextId) (hnone : r.site.context? id = none) :
    r.joined id = [] ∧ r.unloads id = 0 := by
  have howns := h.contexts id
  rwa [hnone] at howns

theorem numbered (h : r.CountsHolders) (id : ContextId) : Numbered id (r.joined id) := by
  cases hc : r.site.context? id with
  | none =>
    rw [(h.absent id hc).1]
    rfl
  | some c => exact (h.ownsJoined hc).2.2

/-- A context that is active has kept all that has joined it. -/
theorem modules_of_active (h : r.CountsHolders) (hc : r.site.context? id = some c)
    (hactive : c.unloaded = false) : c.modules = r.joined id ∧ r.unloads id = 0 := by
  obtain ⟨hmodules, hunloaded, -⟩ := h.ownsJoined hc
  have hzero : r.unloads id = 0 := by simpa [hactive] using hunloaded
  exact ⟨hmodules.trans (if_pos hzero), hzero⟩

theorem mem_joined_of_owned (h : r.CountsHolders) (hm : m ∈ r.owned id) : m ∈ r.joined id := by
  rcases owned_or (h.contexts id) with howned | howned <;> rw [howned] at hm
  · exact hm
  · cases hm

theorem numbered_owned (h : r.CountsHolders) (id : ContextId) : Numbered id (r.owned id) := by
  rcases owned_or (h.contexts id) with howned | howned <;> rw [howned]
  · exact h.numbered id
  · rfl

/-- What is held is there. -/
theorem counts_pos (h : r.CountsHolders) (hm : m ∈ r.custody.held ∨ ∃ id, m ∈ r.owned id) :
    0 < r.counts m.lease := by
  rw [h.counted]
  rcases hm with hm | ⟨id, hm⟩
  · have hpos : 0 < r.custody.handlesTo m.lease := Lease.among_pos_iff.2 ⟨m, hm, rfl⟩
    omega
  · have hid := (h.numbered_owned id).context_eq hm
    have hpos : 0 < m.lease.among (r.owned m.lease.context) :=
      Lease.among_pos_iff.2 ⟨m, hid ▸ hm, rfl⟩
    omega

theorem rests (h : r.CountsHolders) (hr : r.Rests r') : r'.CountsHolders := by
  have howned : ∀ id, r'.owned id = r.owned id := by
    intro id
    have hsame := congrArg (Option.map Prod.fst) (hr.contexts id)
    rw [Option.map_map, Option.map_map] at hsame
    unfold owned context?
    rw [hr.holdsContext]
    split
    · exact congrArg (Option.getD · []) hsame
    · rfl
  refine ⟨fun lease => ?_, ?_, fun id => ?_⟩
  · rw [hr.counts, h.counted, howned, Custody.handlesTo, Custody.handlesTo, hr.held]
  · rw [hr.held, hr.joined]
    exact h.handles
  · have howns := h.contexts id
    have hsame := hr.contexts id
    rw [hr.joined, hr.unloads]
    cases hc : r.site.context? id <;> cases hc' : r'.site.context? id <;>
      simp_all [OwnsJoined]

theorem take (h : r.CountsHolders) {ms : List (LoadedModule β)}
    (hms : ∀ m ∈ ms, m ∈ r.joined m.lease.context) : (r.take ms).CountsHolders := by
  have hheld := r.custody.held_addHandles ms
  refine { h with counted := fun lease => ?_, handles := fun m hm => ?_ }
  · have howned : (r.take ms).owned lease.context = r.owned lease.context := by
      simp [owned, context?, LeaseRun.take]
    have hcounts : (r.take ms).counts lease = r.counts lease + lease.among ms := rfl
    have hhandles : (r.take ms).custody.handlesTo lease =
        r.custody.handlesTo lease + lease.among ms := by
      simp [Custody.handlesTo, LeaseRun.take, Lease.among_perm hheld]
    rw [howned, hcounts, hhandles, h.counted]
    omega
  · rcases List.mem_append.1 (hheld.mem_iff.1 hm) with hm | hm
    · exact h.handles m hm
    · exact hms m hm

variable {custody : Custody β} {dropped : List (LoadedModule β)} {left : Option ContextId}

/-- A context that leaves with its last holder leaves with all that it owned. -/
theorem among_gone (h : r.CountsHolders)
    (hsame : ∀ other, some other ≠ left → custody.holdsContext other = r.custody.holdsContext other)
    (hless : ∀ other, custody.holdsContext other = true → r.custody.holdsContext other = true)
    (dropped : List (LoadedModule β)) (lease : Lease) :
    lease.among (left.toList.flatMap fun id => if custody.holdsContext id then [] else r.owned id) +
      lease.among ((r.leave custody dropped left).owned lease.context) =
        lease.among (r.owned lease.context) := by
  have hkept : custody.holdsContext lease.context = r.custody.holdsContext lease.context →
      (r.leave custody dropped left).owned lease.context = r.owned lease.context := by
    intro heq
    simp [owned, context?, LeaseRun.leave, heq]
  cases left with
  | none =>
    rw [hkept (hsame _ (by simp))]
    simp
  | some id =>
    by_cases hid : lease.context = id
    · subst hid
      cases hnew : custody.holdsContext lease.context with
      | true =>
        -- something else holds the context, and it owns what it did
        rw [hkept (hnew.trans (hless _ hnew).symm)]
        simp [hnew]
      | false =>
        have hgone : (r.leave custody dropped (some lease.context)).owned lease.context = [] := by
          simp [owned, context?, LeaseRun.leave, hnew]
        rw [hgone]
        simp [hnew]
    · rw [hkept (hsame _ (by simpa using hid))]
      have hzero := (h.numbered_owned id).among_eq_zero hid
      cases hnew : custody.holdsContext id <;> simp [hnew, hzero]

/-- What leaves custody drops its holds, and so does the context that goes with it. -/
theorem leave (h : r.CountsHolders) (hheld : r.custody.held.Perm (custody.held ++ dropped))
    (hsame : ∀ other, some other ≠ left → custody.holdsContext other = r.custody.holdsContext other)
    (hless : ∀ other, custody.holdsContext other = true → r.custody.holdsContext other = true) :
    (r.leave custody dropped left).CountsHolders := by
  refine { h with counted := fun lease => ?_, handles := fun m hm => ?_ }
  · have hgone := h.among_gone hsame hless dropped lease
    have hhandles : r.custody.handlesTo lease = custody.handlesTo lease + lease.among dropped := by
      simp [Custody.handlesTo, Lease.among_perm hheld]
    have hcounted := h.counted lease
    simp only [LeaseRun.leave, lose, Lease.among_append] at hgone ⊢
    omega
  · exact h.handles m (hheld.mem_iff.2 (List.mem_append_left _ hm))

/-- **One context has changed**, and what is in custody of its modules. -/
theorem change (h : r.CountsHolders) (howns : OwnsJoined id (r'.joined id) (r'.unloads id) (some c))
    (hfound : r'.site.context? id = some c)
    (hothers : ∀ other, other ≠ id → r'.site.context? other = r.site.context? other ∧
      r'.joined other = r.joined other ∧ r'.unloads other = r.unloads other ∧
      r'.custody.holdsContext other = r.custody.holdsContext other)
    (hgrows : r.joined id ⊆ r'.joined id)
    (hheld : ∀ m ∈ r'.custody.held, m ∈ r.custody.held ∨ m ∈ r'.joined id)
    (hcounts : ∀ lease, r'.counts lease + r.custody.handlesTo lease + lease.among (r.owned id) =
      r.counts lease + r'.custody.handlesTo lease + lease.among (r'.owned id)) :
    r'.CountsHolders := by
  have hnumbered : Numbered id (r'.joined id) := howns.2.2
  rw [← hfound] at howns
  refine ⟨fun lease => ?_, fun m hm => ?_, fun other => ?_⟩
  · have hbefore := h.counted lease
    have hafter := hcounts lease
    by_cases hlease : lease.context = id
    · rw [hlease] at hbefore ⊢
      omega
    · -- the context has no hold on the lease, neither before nor after
      have hzero := (h.numbered_owned id).among_eq_zero hlease
      have hzero' : lease.among (r'.owned id) = 0 := by
        rcases owned_or howns with howned | howned <;> rw [howned]
        · exact hnumbered.among_eq_zero hlease
        · rfl
      obtain ⟨hcontext, -, -, hholds⟩ := hothers _ hlease
      have hsame : r'.owned lease.context = r.owned lease.context := by
        simp [owned, context?, hcontext, hholds]
      rw [hsame]
      omega
  · rcases hheld m hm with hm | hm
    · have hjoined := h.handles m hm
      by_cases hlease : m.lease.context = id
      · rw [hlease] at hjoined ⊢
        exact hgrows hjoined
      · rwa [(hothers _ hlease).2.1]
    · rwa [hnumbered.context_eq hm]
  · by_cases hother : other = id
    · rwa [hother]
    · obtain ⟨hcontext, hjoined, hunloads, -⟩ := hothers other hother
      rw [hcontext, hjoined, hunloads]
      exact h.contexts other

variable {site : Site β} {c' : LoadContext β}

/-- A module that joins is held by its context and by a handle. -/
theorem join (h : r.CountsHolders) (hc : r.context? c.id = some c) (hactive : c.unloaded = false)
    (hactive' : c'.unloaded = false) (hmodules : c'.modules = c.modules ++ [m])
    (hlease : m.lease = ⟨c.id, c.modules.length⟩)
    (hsite : ∀ id, site.context? id = if id = c.id then some c' else r.site.context? id) :
    ((r.join site c.id m).take [m]).CountsHolders := by
  obtain ⟨hheld, hfound, -⟩ := context?_eq_some hc
  obtain ⟨howned, hzero⟩ := h.modules_of_active hfound hactive
  have hjoined : (r.join site c.id m).joined c.id = r.joined c.id ++ [m] := by
    simp [LeaseRun.join]
  have hunloads : (r.join site c.id m).unloads c.id = 0 := hzero
  have hcontext : (r.join site c.id m).context? c.id = some c' := by
    simp [context?, LeaseRun.join, hheld, hsite]
  have hholders : (r.join site c.id m).CountsHolders := by
    refine h.change ⟨?_, ?_, ?_⟩ ((hsite c.id).trans (if_pos rfl)) (fun other hne => ?_) ?_
      (fun m hm => .inl hm) fun lease => ?_
    · rw [hjoined, hunloads, if_pos rfl, hmodules, howned]
    · rw [hunloads, hactive']
      simp
    · rw [hjoined]
      exact (h.numbered c.id).append (by rw [hlease, howned])
    · exact ⟨(hsite other).trans (if_neg hne), by simp [LeaseRun.join, hne], rfl, rfl⟩
    · rw [hjoined]
      exact List.subset_append_left _ _
    · rw [owned_eq hc, owned_eq hcontext, hmodules, Lease.among_append]
      have hcounts : (r.join site c.id m).counts lease = r.counts lease + lease.among [m] := rfl
      have hcustody : (r.join site c.id m).custody = r.custody := rfl
      rw [hcounts, hcustody]
      omega
  -- the context has its hold on the module by now, and the handle is one more
  refine hholders.take fun m' hm' => ?_
  obtain rfl := List.mem_singleton.1 hm'
  rw [hlease, hjoined]
  simp

/-- A context that is unloaded drops its holds, one for each module that it owned. -/
theorem release (h : r.CountsHolders) (hc : r.context? c.id = some c)
    (hunloaded : c'.unloaded = true) (hmodules : c'.modules = [])
    (hsite : ∀ id, site.context? id = if id = c.id then some c' else r.site.context? id) :
    (r.release site c.id c.modules).CountsHolders := by
  obtain ⟨hheld, -, -⟩ := context?_eq_some hc
  have hunloads : (r.release site c.id c.modules).unloads c.id ≠ 0 := by
    simp [LeaseRun.release]
  have hcontext : (r.release site c.id c.modules).context? c.id = some c' := by
    simp [context?, LeaseRun.release, hheld, hsite]
  refine h.change ⟨?_, ?_, h.numbered c.id⟩ ((hsite c.id).trans (if_pos rfl))
    (fun other hne => ?_) (List.Subset.refl _) (fun m hm => .inl hm) fun lease => ?_
  · rw [if_neg hunloads, hmodules]
  · simp [hunloads, hunloaded]
  · exact ⟨(hsite other).trans (if_neg hne), rfl, by simp [LeaseRun.release, hne], rfl⟩
  · have hcounted := h.counted lease
    rw [owned_eq hc, owned_eq hcontext, hmodules]
    have hcounts : (r.release site c.id c.modules).counts lease =
      r.counts lease - lease.among c.modules := rfl
    have hcustody : (r.release site c.id c.modules).custody = r.custody := rfl
    rw [hcounts, hcustody]
    -- the holds that are dropped are among those counted, so nothing is cut off at zero
    by_cases hlease : lease.context = c.id
    · rw [hlease, owned_eq hc] at hcounted
      simp
      omega
    · have hnone := (h.numbered_owned c.id).among_eq_zero hlease
      rw [owned_eq hc] at hnone
      simp [hnone]

theorem opens (h : r.CountsHolders) (ho : r.Opens r' c) : r'.CountsHolders := by
  obtain ⟨hjoined, hunloads⟩ := h.absent c.id ho.gains.absent
  have hbefore : r.owned c.id = [] := by simp [owned, context?, ho.gains.absent]
  have hafter : r'.owned c.id = c.modules := by
    rcases ho.owned with hmodules | hheld
    · cases hheld : r'.custody.holdsContext c.id <;>
        simp [owned, context?, ho.gains.found, hmodules, hheld]
    · simp [owned, context?, ho.gains.found, hheld]
  refine h.change ⟨ho.modules, ho.unloaded, ?_⟩ ho.gains.found (fun other hne => ?_) ?_
    (fun m hm => ?_) fun lease => ?_
  · rcases ho.lease with hnone | ⟨m, hm, hlease⟩
    · rw [hnone]
      rfl
    · rw [hm, Numbered]
      simp [hlease]
  · exact ⟨ho.gains.others other hne, ho.others other hne⟩
  · rw [hjoined]
    exact List.nil_subset _
  · rw [ho.held] at hm
    exact List.mem_append.1 hm
  · have hhandles : r'.custody.handlesTo lease =
        r.custody.handlesTo lease + lease.among (r'.joined c.id) := by
      simp [Custody.handlesTo, ho.held]
    rw [hbefore, hafter, hhandles, ho.counts, gain, Lease.among_append, Lease.among_nil]
    omega

/-- **Whatever a step does, every lease counts who holds it.** -/
theorem moves (h : r.CountsHolders) (hm : r.Moves r') : r'.CountsHolders := by
  cases hm with
  | rests hr => exact h.rests hr
  | takes hms =>
    refine h.take fun m hm => ?_
    rcases hms m hm with hm | ⟨id, hm⟩
    · exact h.handles m hm
    · have hjoined := h.mem_joined_of_owned hm
      rwa [(h.numbered id).context_eq hjoined]
  | leaves hheld hsame hless => exact h.leave hheld hsame hless
  | joins hc hactive hactive' hmodules hlease hsite =>
    exact h.join hc hactive hactive' hmodules hlease hsite
  | releases hc hunloaded hmodules hsite => exact h.release hc hunloaded hmodules hsite
  | opens ho => exact h.opens ho

end CountsHolders

/-- What has joined a context and how often it was unloaded is never taken back. -/
theorem Moves.grows (hm : r.Moves r') (h : r.CountsHolders) (id : ContextId) :
    r.joined id <+: r'.joined id ∧ r.unloads id ≤ r'.unloads id := by
  cases hm with
  | rests hr => rw [hr.joined, hr.unloads]; exact ⟨List.prefix_rfl, Nat.le_refl _⟩
  | takes | leaves => exact ⟨List.prefix_rfl, Nat.le_refl _⟩
  | @joins c c' m =>
    refine ⟨?_, Nat.le_refl _⟩
    by_cases hid : id = c.id
    · subst hid
      simp [take, join]
    · simp [take, join, hid]
  | @releases c =>
    refine ⟨List.prefix_rfl, ?_⟩
    by_cases hid : id = c.id
    · subst hid
      simp [release]
    · simp [release, hid]
  | @opens _ c ho =>
    by_cases hid : id = c.id
    · subst hid
      obtain ⟨hjoined, hunloads⟩ := h.absent _ ho.gains.absent
      rw [hjoined, hunloads]
      exact ⟨List.nil_prefix, Nat.zero_le _⟩
    · obtain ⟨hjoined, hunloads, -⟩ := ho.others id hid
      rw [hjoined, hunloads]
      exact ⟨List.prefix_rfl, Nat.le_refl _⟩

/-- **A module that is reclaimed does not come back.** -/
theorem Moves.reclaimed (hm : r.Moves r') (h : r.CountsHolders) (hjoined : m ∈ r.joined id)
    (hzero : r.counts m.lease = 0) : r'.counts m.lease = 0 := by
  obtain ⟨n, hn, hlease⟩ := (h.numbered id).lease_eq hjoined
  cases hm with
  | rests hr => rw [hr.counts, hzero]
  | @takes ms hms =>
    have hnone : m.lease.among ms = 0 := by
      refine Lease.among_eq_zero_iff.2 fun m' hm' heq => ?_
      have hpos := h.counts_pos (hms m' hm')
      rw [heq] at hpos
      omega
    simp [take, gain, hzero, hnone]
  | leaves => simp [leave, lose, hzero]
  | @joins c c' m' site hc hactive hactive' hmodules hnew hsite =>
    -- the new module comes after all that have joined its context, so its lease is another
    obtain ⟨-, hfound, -⟩ := context?_eq_some hc
    obtain ⟨howned, -⟩ := h.modules_of_active hfound hactive
    have hnone : m.lease.among [m'] = 0 := by
      refine Lease.among_eq_zero_iff.2 fun m₁ hm₁ heq => ?_
      rw [List.mem_singleton.1 hm₁, hnew, hlease, howned] at heq
      obtain ⟨hid, hnumber⟩ := Lease.mk.inj heq
      rw [hid] at hnumber
      omega
    simp [take, join, gain, hzero, hnone]
  | releases => simp [release, lose, hzero]
  | @opens _ c ho =>
    -- nothing has joined the new context before, so the module is of another
    obtain ⟨hempty, -⟩ := h.absent c.id ho.gains.absent
    have hne : m.lease.context ≠ c.id := by
      rw [hlease]
      rintro rfl
      rw [hempty] at hjoined
      cases hjoined
    have hnone := ((h.opens ho).numbered c.id).among_eq_zero hne
    have hmodules : m.lease.among c.modules = 0 := by
      rw [ho.modules]
      split
      · exact hnone
      · rfl
    rw [ho.counts, gain, Lease.among_append, hzero, hnone, hmodules]

/-! ## Runs -/

namespace CountsHolders

theorem step (h : r.CountsHolders) (step : LeaseStep β) : (r.step step).CountsHolders :=
  h.moves (moves_step h.absent step)

theorem run (h : r.CountsHolders) (steps : List (LeaseStep β)) : (r.run steps).CountsHolders := by
  induction steps generalizing r with
  | nil => exact h
  | cons first later ih => exact ih (h.step first)

theorem grows_run (h : r.CountsHolders) (steps : List (LeaseStep β)) (id : ContextId) :
    r.joined id <+: (r.run steps).joined id ∧ r.unloads id ≤ (r.run steps).unloads id := by
  induction steps generalizing r with
  | nil => exact ⟨List.prefix_rfl, Nat.le_refl _⟩
  | cons first later ih =>
    obtain ⟨hjoined, hunloads⟩ := (moves_step h.absent first).grows h id
    obtain ⟨hjoined', hunloads'⟩ := ih (h.step first)
    exact ⟨hjoined.trans hjoined', Nat.le_trans hunloads hunloads'⟩

theorem reclaimed_run (h : r.CountsHolders) (hjoined : m ∈ r.joined id)
    (hzero : r.counts m.lease = 0) (steps : List (LeaseStep β)) :
    (r.run steps).counts m.lease = 0 := by
  induction steps generalizing r with
  | nil => exact hzero
  | cons first later ih =>
    have hmoves := moves_step h.absent first
    obtain ⟨hgrown, -⟩ := hmoves.grows h id
    exact ih (h.step first) (hgrown.subset hjoined) (hmoves.reclaimed h hjoined hzero)

end CountsHolders

/-- **What the leases say**, of the modules and to a context that is unloaded. -/
structure TellsHolders (r : LeaseRun β) : Prop where
  /-- Every live handle holds the lease once, and so does the context that owns the module. -/
  counted : ∀ lease, r.counts lease = r.custody.handlesTo lease +
    ((r.owned lease.context).any fun m => m.lease == lease).toNat
  upgrades_iff : ∀ lease, r.upgrades lease = true ↔
    (∃ m ∈ r.owned lease.context, m.lease = lease) ∨ r.custody.holds lease = true
  alive_eq : ∀ lease, r.custody.alive r.site lease = r.upgrades lease
  /-- The first unload lets go of the module of every load that succeeded. -/
  first : ∀ id c, r.context? id = some c → r.unloads id = 0 →
    (r.site.unload r.shared id).1 = some ⟨id, (r.joined id).length,
      (r.joined id).countP fun m => r.custody.holds m.lease⟩
  again : ∀ id c, r.context? id = some c → r.unloads id ≠ 0 →
    (r.site.unload r.shared id).1 = some ⟨id, 0, 0⟩
  /-- The counts tell what is held outside the context. -/
  unload_eq : ∀ id c, r.context? id = some c →
    r.site.unload r.custody.holds id = r.site.unload r.shared id

namespace CountsHolders

theorem upgrades_iff (h : r.CountsHolders) (lease : Lease) : r.upgrades lease = true ↔
    (∃ m ∈ r.owned lease.context, m.lease = lease) ∨ r.custody.holds lease = true := by
  rw [upgrades, decide_eq_true_iff, h.counted, Custody.holds_iff, ← Lease.among_pos_iff]
  omega

theorem alive_eq (h : r.CountsHolders) (lease : Lease) :
    r.custody.alive r.site lease = r.upgrades lease := by
  have howner : (∃ c ∈ r.site.contexts, r.custody.holdsContext c.id = true ∧
      ∃ m ∈ c.modules, m.lease = lease) ↔ ∃ m ∈ r.owned lease.context, m.lease = lease := by
    -- one side looks through all contexts, the other looks up the one that the lease names
    constructor
    · rintro ⟨c, hc, hheld, m, hm, heq⟩
      have hcontext : r.context? c.id = some c := by
        rw [context?, if_pos hheld, Site.context?_of_mem hc]
      rw [← owned_eq hcontext] at hm
      have hid := (h.numbered_owned c.id).context_eq hm
      rw [heq] at hid
      exact ⟨m, hid ▸ hm, heq⟩
    · rintro ⟨m, hm, heq⟩
      obtain ⟨c, hcontext, hm⟩ := context?_of_mem_owned hm
      obtain ⟨hheld, hfound, hid⟩ := context?_eq_some hcontext
      exact ⟨c, List.mem_of_find?_eq_some hfound, hid ▸ hheld, m, hm, heq⟩
  rw [Bool.eq_iff_iff, h.upgrades_iff, ← howner, Custody.alive, Bool.or_eq_true, or_comm]
  simp [LoadContext.owns]

/-- The lease of a module that a context owns is shared if there is a handle to the module. -/
theorem shared_eq (h : r.CountsHolders) (hm : m ∈ r.owned id) :
    r.shared m.lease = r.custody.holds m.lease := by
  have hid := (h.numbered_owned id).context_eq hm
  have hone := (h.numbered_owned id).among_eq_one hm
  rw [Bool.eq_iff_iff, Custody.holds_iff, shared, decide_eq_true_iff, h.counted, hid, hone]
  omega

theorem unload_eq (h : r.CountsHolders) (hc : r.context? id = some c) :
    r.site.unload r.custody.holds id = r.site.unload r.shared id := by
  obtain ⟨-, hfound, -⟩ := context?_eq_some hc
  have hsame : c.unload r.custody.holds = c.unload r.shared := by
    have hcount : (c.modules.countP fun m => r.custody.holds m.lease) =
        c.modules.countP fun m => r.shared m.lease :=
      List.countP_congr fun m hm => by rw [h.shared_eq (owned_eq hc ▸ hm)]
    simp [LoadContext.unload, hcount]
  simp [Site.unload, hfound, hsame]

/-- An unload reports what its context has kept. -/
theorem report_eq (h : r.CountsHolders) (hc : r.context? id = some c) :
    (r.site.unload r.shared id).1 = some ⟨id, c.modules.length,
      c.modules.countP fun m => r.custody.holds m.lease⟩ := by
  obtain ⟨-, hfound, hid⟩ := context?_eq_some hc
  rw [← h.unload_eq hc]
  simp [Site.unload, hfound, LoadContext.unload, hid]

theorem tellsHolders (h : r.CountsHolders) : r.TellsHolders where
  counted lease := by rw [h.counted, (h.numbered_owned lease.context).among_eq]
  upgrades_iff := h.upgrades_iff
  alive_eq := h.alive_eq
  first id c hc hzero := by
    obtain ⟨-, hfound, -⟩ := context?_eq_some hc
    rw [h.report_eq hc, (h.ownsJoined hfound).1, if_pos hzero]
  again id c hc hne := by
    obtain ⟨-, hfound, -⟩ := context?_eq_some hc
    rw [h.report_eq hc, (h.ownsJoined hfound).1, if_neg hne]
    rfl
  unload_eq id c hc := h.unload_eq hc

/-- What a context has let go of is there as long as there is a handle to it. -/
theorem upgrades_of_unloaded (h : r.CountsHolders) (hm : m ∈ r.joined id) (hne : r.unloads id ≠ 0) :
    r.upgrades m.lease = true ↔ r.custody.holds m.lease = true := by
  have hid := (h.numbered id).context_eq hm
  have hempty : r.owned m.lease.context = [] := by
    rw [hid]
    cases hc : r.context? id with
    | none => simp [owned, hc]
    | some c =>
      obtain ⟨-, hfound, -⟩ := context?_eq_some hc
      rw [owned_eq hc, (h.ownsJoined hfound).1, if_neg hne]
  rw [h.upgrades_iff, hempty]
  simp

end CountsHolders

/-- **Leases are counted, and a module is reclaimed when nobody is left to hold it.** Whatever is
loaded into whatever contexts, cloned, dropped and unloaded, and in whatever order, every lease
counts the live handles to its module and the context that owns it, and nothing else. A module that
is reclaimed does not come back; one that its context has let go of is there from then on exactly as
long as there is a handle to it. -/
theorem leases_counted (s : Site β) (steps later : List (LeaseStep β)) :
    let r := (start s).run steps
    r.TellsHolders ∧ ∀ id, ∀ m ∈ r.joined id,
      (r.upgrades m.lease = false → (r.run later).upgrades m.lease = false) ∧
      (r.unloads id ≠ 0 → ((r.run later).upgrades m.lease = true ↔
        (r.run later).custody.holds m.lease = true)) := by
  intro r
  have h : r.CountsHolders := (countsHolders_start s).run steps
  refine ⟨h.tellsHolders, fun id m hm => ⟨fun hgone => ?_, fun hne => ?_⟩⟩
  · have hzero : r.counts m.lease = 0 := by simpa [upgrades] using hgone
    simp [upgrades, h.reclaimed_run hm hzero later]
  · obtain ⟨hjoined, hunloads⟩ := h.grows_run later id
    exact (h.run later).upgrades_of_unloaded (hjoined.subset hm) (by omega)

/-- Both modules of a table have joined a context, and nothing else holds the second of them. -/
def beforeEbb : List (LeaseStep Unit) :=
  [.create (.linked SiteRun.tideModules), .load ⟨0⟩ ⟨"almanac.module"⟩, .load ⟨0⟩ ⟨"coast.module"⟩,
    .load ⟨0⟩ ⟨"coast.module"⟩, .clone 0, .drop 0, .drop 1]

/-- What is left of them, however often the context is unloaded. -/
def ebb (times : Nat) : LeaseRun Unit :=
  (start default).run (beforeEbb ++ List.replicate times (.unload ⟨0⟩))

/-- The first unload lets go of both, the second one of none; the first module is there until the
last handle to it is dropped. -/
theorem leases_counted_ebb :
    ((ebb 0).site.unload (ebb 0).shared ⟨0⟩).1 = some ⟨⟨0⟩, 2, 1⟩ ∧
    ((ebb 1).site.unload (ebb 1).shared ⟨0⟩).1 = some ⟨⟨0⟩, 0, 0⟩ ∧
    ∃ m ∈ (ebb 1).joined ⟨0⟩, m.name = "almanac" ∧ (ebb 1).upgrades m.lease = true ∧
      ((ebb 1).run [.drop 2]).upgrades m.lease = false := by
  obtain ⟨c₀, hc₀⟩ : ∃ c, (ebb 0).context? ⟨0⟩ = some c :=
    Option.isSome_iff_exists.1 (by decide +kernel)
  obtain ⟨c₁, hc₁⟩ : ∃ c, (ebb 1).context? ⟨0⟩ = some c :=
    Option.isSome_iff_exists.1 (by decide +kernel)
  have hfirst : (ebb 0).TellsHolders := (leases_counted default _ []).1
  obtain ⟨hagain, hjoined⟩ : (ebb 1).TellsHolders ∧ _ := leases_counted default _ [.drop 2]
  have hmem : ((ebb 1).joined ⟨0⟩).get ⟨0, by decide +kernel⟩ ∈ (ebb 1).joined ⟨0⟩ :=
    List.get_mem _ _
  have hlater := (hjoined ⟨0⟩ _ hmem).2 (by decide +kernel)
  refine ⟨(hfirst.first ⟨0⟩ c₀ hc₀ (by decide +kernel)).trans (by decide +kernel),
    hagain.again ⟨0⟩ c₁ hc₁ (by decide +kernel), _, hmem, by decide +kernel, by decide +kernel, ?_⟩
  rw [← Bool.not_eq_true]
  exact fun hthere => absurd (hlater.1 hthere) (by decide +kernel)

end LeaseRun

end ModularHost
