import Mathlib.Data.List.Perm.Lattice
import ModularHost.Proofs.Container.Run
import ModularHost.Proofs.Module.Advance
import ModularHost.Proofs.Module.Story
/-!
# Loads in the background

A caller begins a load and waits, with a limit or without; the work goes on beside it, ends or
breaks down; the limit passes at any moment; and records that came too late are collected. A loader
and its clones share all they have, so they are one loader here, whoever calls it.

What callers are told and what is collected is what the stories of the loads come to, in every run
(`LoaderRun.TrueToStories`), and what was answered stays answered (`keeps_run`).
-/


namespace ModularHost

variable {β : Type}

/-! ## Runs -/

/-- What happens to a loader, and to the site beside it. -/
inductive LoaderStep (β : Type) where
  /-- A caller begins a load and waits for it. -/
  | begin (path : Path) (limit : Option Duration)
  | work (position : Nat) (gateOpen : Bool)
  | crash (position : Nat)
  | expire (position : Nat)
  /-- Someone takes the late records. -/
  | collect
  /-- Someone uses the container. -/
  | call (call : ContainerCall β)
  /-- The host publishes a type. -/
  | provide (name : String) (type : TypeRef)

def LoaderStep.isExpire : LoaderStep β → Bool
  | .expire _ => true
  | _ => false

/-- A loader at work. -/
structure LoaderRun (β : Type) where
  loader : Loader β
  site : Site β
  /-- What happened to the loads, each called by its position. Nothing reads it. -/
  log : List (Nat × LoadMoment β)
  /-- What was handed over each time the late records were taken. -/
  collected : List (List (ModuleRecord β))

namespace LoaderRun

def start (source : ModuleSource β) (site : Site β) : LoaderRun β := ⟨.new source, site, [], []⟩

/-- Writes down what happens to a load, if there is one. -/
def note (r : LoaderRun β) (position : Nat) (moment : LoadMoment β) : List (Nat × LoadMoment β) :=
  if position < r.loader.loads.length then r.log ++ [(position, moment)] else r.log

def step (r : LoaderRun β) : LoaderStep β → LoaderRun β
  | .begin path limit => { r with loader := r.loader.begin path limit }
  | .work position gateOpen =>
    let (loader, site) := r.loader.advance gateOpen r.site position
    { r with loader, site, log := r.note position (.worked gateOpen r.site) }
  | .crash position =>
    { r with loader := r.loader.crash position, log := r.note position .crashed }
  | .expire position =>
    { r with loader := r.loader.expire position, log := r.note position .expired }
  | .collect =>
    let (records, loader) := r.loader.collect
    { r with loader, collected := r.collected ++ [records] }
  | .call call => { r with site.container := (r.site.container.perform call).2 }
  | .provide name type =>
    match r.site.host.provide name type with
    | .ok (_, host) => { r with site.host := host }
    | .error _ => r

def run (r : LoaderRun β) (steps : List (LoaderStep β)) : LoaderRun β := steps.foldl step r

/-- What happened to one load, in order. -/
def story (r : LoaderRun β) (position : Nat) : List (LoadMoment β) :=
  (r.log.filter (·.1 == position)).map (·.2)

/-- How the work of a load stands. -/
def standing (r : LoaderRun β) (position : Nat) (load : Load β) : WorkState β :=
  Loader.standing r.loader.source load.path (r.story position)

/-- The late record of the load at a position. -/
def lateRecord? (r : LoaderRun β) (position : Nat) : Option (ModuleRecord β) :=
  r.loader.loads[position]?.bind fun load =>
    load.lateRecord? r.loader.source (r.story position)

/-- Every load follows its story; what was collected and what is still to be collected are the
late records, one for each load that has one; and what a load has bound is in the container. -/
structure TrueToStories (r : LoaderRun β) : Prop where
  stories : ∀ position (load : Load β), r.loader.loads[position]? = some load →
    load.FollowsStory r.loader.source (r.story position)
  unwritten : ∀ position, r.loader.loads.length ≤ position → r.story position = []
  late : (r.collected.flatten ++ r.loader.late).Perm
    ((List.range r.loader.loads.length).filterMap r.lateRecord?)
  bound : ∀ position load, r.loader.loads[position]? = some load →
    (r.standing position load).Bound r.site.container

end LoaderRun

/-! ## What a step does to a loader -/

namespace Loader

variable {l : Loader β} {position : Nat} {load : Load β}

/-- A loader with a load put in the place of another, and a record that came too late. -/
def put (l : Loader β) (position : Nat) (load : Load β) (late : Option (ModuleRecord β)) :
    Loader β :=
  { l with loads := l.loads.set position load, late := l.late ++ late.toList }

theorem put_self (h : l.loads[position]? = some load) : l.put position load none = l := by
  have hset : l.loads.set position load = l.loads := by
    obtain ⟨hlt, hget⟩ := List.getElem?_eq_some_iff.1 h
    rw [← hget, List.set_getElem_self]
  simp [put, hset]

theorem update_eq_put (h : l.loads[position]? = some load) (change : Load β → Load β) :
    l.update position change = l.put position (change load) none := by
  simp [update, put, List.modify_eq_set_getElem?, h]

theorem update_of_none (h : l.loads[position]? = none) (change : Load β → Load β) :
    l.update position change = l := by
  simp [update, List.modify_eq_set_getElem?, h]

/-- Work that has not ended goes on, and its load is settled. -/
theorem advance_eq_put (h : l.loads[position]? = some load) {work : Work β}
    (hw : load.work = some work) (gateOpen : Bool) (s : Site β) :
    l.advance gateOpen s position =
      (l.put position (load.settle (work.advance gateOpen l.source s).1)
        (if load.answer.isSome then (work.advance gateOpen l.source s).1.record? else none),
        (work.advance gateOpen l.source s).2) := by
  have hwork : l.loads[position]?.bind (·.work) = some work := by simp [h, hw]
  simp only [advance, hwork]
  rcases work.advance gateOpen l.source s with ⟨r | - | work', s'⟩
  · have hput : l.update position (fun load =>
        { load with work := none, answer := load.answer.or (some r) }) =
          l.put position (load.settle (.finished r)) none := update_eq_put h _
    simp only [complete, h, hput]
    cases ha : load.answer.isSome <;> simp [put, WorkState.record?]
  · have hput : l.crash position = l.put position (load.settle .crashed) none := update_eq_put h _
    simp [hput, WorkState.record?]
  · have hput : l.update position (fun load => { load with work := some work' }) =
        l.put position { load with work := some work' } none := update_eq_put h _
    simp [hput, Load.settle, WorkState.work?, WorkState.verdict?, WorkState.record?]

/-- Work that has ended does nothing more. -/
theorem advance_of_ended (h : l.loads[position]?.bind (·.work) = none) (gateOpen : Bool)
    (s : Site β) : l.advance gateOpen s position = (l, s) := by
  simp [advance, h]

end Loader

namespace LoaderRun

variable {r : LoaderRun β} {position : Nat} {load : Load β}

/-- A run in which something happened to one load. -/
def touch (r : LoaderRun β) (position : Nat) (load : Load β) (moment : LoadMoment β)
    (late : Option (ModuleRecord β)) (site : Site β) : LoaderRun β :=
  { r with
    loader := r.loader.put position load late, site
    log := r.log ++ [(position, moment)] }

theorem note_of_load (h : r.loader.loads[position]? = some load) (moment : LoadMoment β) :
    r.note position moment = r.log ++ [(position, moment)] :=
  if_pos (List.getElem?_eq_some_iff.1 h).1

theorem note_of_none (h : r.loader.loads[position]? = none) (moment : LoadMoment β) :
    r.note position moment = r.log :=
  if_neg (by simpa using h)

theorem story_touch (r : LoaderRun β) (position : Nat) (load : Load β) (moment : LoadMoment β)
    (late : Option (ModuleRecord β)) (site : Site β) (other : Nat) :
    (r.touch position load moment late site).story other =
      if position = other then r.story other ++ [moment] else r.story other := by
  by_cases h : position = other <;> simp [touch, story, h]

/-- A change at one place of a numbered list changes the members by what came to that place. -/
theorem filterMap_range_perm {α : Type} {f g : Nat → Option α} {n p : Nat} {new : Option α}
    (hp : p < n) (hother : ∀ q, q ≠ p → g q = f q)
    (hat : (f p = none ∧ g p = new) ∨ (g p = f p ∧ new = none)) :
    ((List.range n).filterMap f ++ new.toList).Perm ((List.range n).filterMap g) := by
  rcases hat with ⟨hf, hg⟩ | ⟨hg, rfl⟩
  · have hperm : (List.range n).Perm (p :: (List.range n).erase p) :=
      List.perm_cons_erase (List.mem_range.2 hp)
    have hrest : ((List.range n).erase p).filterMap g = ((List.range n).erase p).filterMap f := by
      refine List.filterMap_congr fun q hq => hother q ?_
      rintro rfl
      exact List.Nodup.not_mem_erase List.nodup_range hq
    have hold : ((List.range n).filterMap f).Perm (((List.range n).erase p).filterMap f) := by
      have hall := hperm.filterMap f
      rwa [List.filterMap_cons_none hf] at hall
    have hnew : ((List.range n).filterMap g).Perm
        (new.toList ++ ((List.range n).erase p).filterMap f) := by
      have hall := hperm.filterMap g
      rw [List.filterMap_cons, hg, hrest] at hall
      cases new <;> exact hall
    exact ((hold.append_right _).trans List.perm_append_comm).trans hnew.symm
  · have hsame : g = f := by
      funext q
      by_cases hq : q = p
      · rw [hq, hg]
      · exact hother q hq
    rw [hsame, Option.toList_none, List.append_nil]

/-- **What happens to one load is between that load and its story.** -/
theorem TrueToStories.touch (h : r.TrueToStories) (hload : r.loader.loads[position]? = some load)
    {load' : Load β} {moment : LoadMoment β} {late : Option (ModuleRecord β)} {site : Site β}
    (hfollows : load'.FollowsStory r.loader.source (r.story position ++ [moment]))
    (hlate : (load.lateRecord? r.loader.source (r.story position) = none ∧
        load'.lateRecord? r.loader.source (r.story position ++ [moment]) = late) ∨
      (load'.lateRecord? r.loader.source (r.story position ++ [moment]) =
        load.lateRecord? r.loader.source (r.story position) ∧ late = none))
    (hext : r.site.container.ledger.Extends site.container.ledger)
    (hbound : (Loader.standing r.loader.source load'.path
      (r.story position ++ [moment])).Bound site.container) :
    (r.touch position load' moment late site).TrueToStories := by
  have hlt : position < r.loader.loads.length := (List.getElem?_eq_some_iff.1 hload).1
  have hat : (r.touch position load' moment late site).loader.loads[position]? = some load' := by
    simp [LoaderRun.touch, Loader.put, hlt]
  have hother : ∀ q, q ≠ position →
      (r.touch position load' moment late site).loader.loads[q]? = r.loader.loads[q]? := by
    intro q hq
    simp [LoaderRun.touch, Loader.put, hq.symm]
  have hstory : (r.touch position load' moment late site).story position =
      r.story position ++ [moment] := by rw [story_touch, if_pos rfl]
  have hstory' : ∀ q, q ≠ position →
      (r.touch position load' moment late site).story q = r.story q := by
    intro q hq
    rw [story_touch, if_neg hq.symm]
  refine ⟨fun q load₁ hq => ?_, fun q hq => ?_, ?_, fun q load₁ hq => ?_⟩
  · by_cases hqp : q = position
    · subst hqp
      obtain rfl : load' = load₁ := Option.some.inj (hat.symm.trans hq)
      rw [hstory]
      exact hfollows
    · rw [hother q hqp] at hq
      rw [hstory' q hqp]
      exact h.stories q load₁ hq
  · have hq' : r.loader.loads.length ≤ q := by
      simpa [LoaderRun.touch, Loader.put] using hq
    rw [hstory' q (by omega)]
    exact h.unwritten q hq'
  · have hlength : (r.touch position load' moment late site).loader.loads.length =
        r.loader.loads.length := by simp [LoaderRun.touch, Loader.put]
    have hrecord : r.lateRecord? position =
        load.lateRecord? r.loader.source (r.story position) := by simp [lateRecord?, hload]
    have hrecord' : (r.touch position load' moment late site).lateRecord? position =
        load'.lateRecord? r.loader.source (r.story position ++ [moment]) := by
      rw [lateRecord?, hat, hstory]
      rfl
    have hchange : (r.lateRecord? position = none ∧
        (r.touch position load' moment late site).lateRecord? position = late) ∨
          ((r.touch position load' moment late site).lateRecord? position =
            r.lateRecord? position ∧ late = none) := by
      rw [hrecord, hrecord']
      exact hlate
    have hperm := filterMap_range_perm hlt
      (fun q hq => by rw [lateRecord?, hother q hq, hstory' q hq]; rfl) hchange
    rw [hlength]
    refine List.Perm.trans ?_ hperm
    have hsplit : (r.touch position load' moment late site).collected.flatten ++
        (r.touch position load' moment late site).loader.late =
          (r.collected.flatten ++ r.loader.late) ++ late.toList :=
      (List.append_assoc _ _ _).symm
    rw [hsplit]
    exact h.late.append_right _
  · by_cases hqp : q = position
    · subst hqp
      obtain rfl : load' = load₁ := Option.some.inj (hat.symm.trans hq)
      rw [standing, hstory]
      exact hbound
    · rw [hother q hqp] at hq
      rw [standing, hstory' q hqp]
      exact (h.bound q load₁ hq).mono hext

theorem trueToStories_start (source : ModuleSource β) (site : Site β) :
    (start source site).TrueToStories where
  stories position load h := by simp [start, Loader.new] at h
  unwritten position _ := rfl
  late := .refl _
  bound position load h := by simp [start, Loader.new] at h

theorem TrueToStories.begin (h : r.TrueToStories) (path : Path) (limit : Option Duration) :
    (r.step (.begin path limit)).TrueToStories := by
  have hnew : r.story r.loader.loads.length = [] := h.unwritten _ (Nat.le_refl _)
  have hcases : ∀ q load, (r.loader.begin path limit).loads[q]? = some load →
      r.loader.loads[q]? = some load ∨
        (q = r.loader.loads.length ∧ load = ⟨path, limit, some (.queued path), none⟩) := by
    intro q load hq
    rw [Loader.begin, List.getElem?_append] at hq
    split at hq
    · exact .inl hq
    · rename_i hlt
      obtain ⟨hq0, hload⟩ := List.getElem?_eq_some_iff.1 hq
      have hzero : q - r.loader.loads.length = 0 := by simpa using hq0
      simp only [hzero, List.getElem_cons_zero] at hload
      exact .inr ⟨by omega, hload.symm⟩
  refine ⟨fun q load hq => ?_, fun q hq => ?_, ?_, fun q load hq => ?_⟩
  · rcases hcases q load hq with hold | ⟨rfl, rfl⟩
    · exact h.stories q load hold
    · have hstory : (r.step (.begin path limit)).story r.loader.loads.length = [] := hnew
      rw [hstory]
      exact ⟨rfl, fun ht => by simp [Load.timedOut, WorkState.overruns] at ht, fun _ => rfl⟩
  · refine h.unwritten q ?_
    simp only [step, Loader.begin, List.length_append, List.length_singleton] at hq
    omega
  · -- the new load has no late record, and the others have what they had
    have hlength : (r.step (.begin path limit)).loader.loads.length =
        r.loader.loads.length + 1 := by simp [step, Loader.begin]
    have hold : (List.range r.loader.loads.length).filterMap
        (r.step (.begin path limit)).lateRecord? =
          (List.range r.loader.loads.length).filterMap r.lateRecord? := by
      refine List.filterMap_congr fun q hq => ?_
      have hget : (r.loader.begin path limit).loads[q]? = r.loader.loads[q]? :=
        List.getElem?_append_left (List.mem_range.1 hq)
      simp only [lateRecord?, step, hget]
      rfl
    have hlast : (r.step (.begin path limit)).lateRecord? r.loader.loads.length = none := by
      have hget : (r.loader.begin path limit).loads[r.loader.loads.length]? =
          some ⟨path, limit, some (.queued path), none⟩ := by simp [Loader.begin]
      have hstory : (r.step (.begin path limit)).story r.loader.loads.length = [] := hnew
      rw [lateRecord?, hstory]
      simp only [step, hget, Option.bind_some, Load.lateRecord?]
      exact ite_self none
    have hone : [r.loader.loads.length].filterMap
        (r.step (.begin path limit)).lateRecord? = [] := by simp [hlast]
    rw [hlength, List.range_succ, List.filterMap_append, hold, hone, List.append_nil]
    exact h.late
  · rcases hcases q load hq with hold | ⟨rfl, rfl⟩
    · exact h.bound q load hold
    · have hstory : (r.step (.begin path limit)).story r.loader.loads.length = [] := hnew
      rw [standing, hstory]
      trivial

/-- What happens to work that has ended changes nothing. -/
theorem TrueToStories.touch_ended (h : r.TrueToStories)
    (hload : r.loader.loads[position]? = some load)
    (hwork : load.work = none) {moment : LoadMoment β} (hmoment : moment.isExpired = false) :
    (r.touch position load moment none r.site).TrueToStories := by
  have hfollows := h.stories position load hload
  have hnone := hfollows.work.symm.trans hwork
  have hended := WorkState.not_waiting_of_work? hnone
  have hstay := WorkState.goOn_of_not_waiting r.loader.source hended moment
  have hsettled := hfollows.settle hmoment
  rw [hstay, hfollows.settle_eq_self hended _ hnone] at hsettled
  refine h.touch hload hsettled (.inr ⟨?_, rfl⟩) (.refl _) ?_
  · rw [Load.lateRecord?, Load.lateRecord?, Load.timedOut_append_of_not_expired hmoment,
      Load.standing_append, hstay]
  · rw [Load.standing_append, hstay]
    exact h.bound position load hload

/-- Work that has not ended is left where it comes to. -/
theorem TrueToStories.touch_waiting (h : r.TrueToStories)
    (hload : r.loader.loads[position]? = some load)
    {work : Work β} (hwork : load.work = some work) (moment : LoadMoment β)
    (hmoment : moment.isExpired = false) {site : Site β}
    (hext : r.site.container.ledger.Extends site.container.ledger)
    (hbound : ((WorkState.waiting work).goOn r.loader.source moment).Bound site.container) :
    (r.touch position (load.settle ((WorkState.waiting work).goOn r.loader.source moment)) moment
      (if load.answer.isSome
        then ((WorkState.waiting work).goOn r.loader.source moment).record? else none)
      site).TrueToStories := by
  have hfollows := h.stories position load hload
  have hwaiting := WorkState.eq_waiting_of_work? (hfollows.work.symm.trans hwork)
  have hsettled := hfollows.settle hmoment
  obtain ⟨hnone, hsome⟩ := hfollows.lateRecord?_settle hmoment hwork
  rw [hwaiting] at hsettled hsome
  refine h.touch hload hsettled (.inl ⟨hnone, hsome⟩) hext ?_
  have hstanding : Loader.standing r.loader.source load.path (r.story position ++ [moment]) =
      (WorkState.waiting work).goOn r.loader.source moment := by
    rw [Load.standing_append, hwaiting]
  exact hstanding ▸ hbound

/-- The work of a load goes on. -/
theorem TrueToStories.work (h : r.TrueToStories) (position : Nat) (gateOpen : Bool) :
    (r.step (.work position gateOpen)).TrueToStories := by
  cases hload : r.loader.loads[position]? with
  | none =>
    have hsame : r.step (.work position gateOpen) = r := by
      simp only [step, note_of_none hload]
      rw [Loader.advance_of_ended (by simp [hload])]
    rw [hsame]
    exact h
  | some load =>
    cases hwork : load.work with
    | none =>
      have hstep : r.step (.work position gateOpen) =
          r.touch position load (.worked gateOpen r.site) none r.site := by
        simp only [step, note_of_load hload]
        rw [Loader.advance_of_ended (by simp [hload, hwork]), LoaderRun.touch,
          Loader.put_self hload]
      rw [hstep]
      exact h.touch_ended hload hwork rfl
    | some work =>
      have hstep : r.step (.work position gateOpen) =
          r.touch position (load.settle (work.advance gateOpen r.loader.source r.site).1)
            (.worked gateOpen r.site)
            (if load.answer.isSome
              then (work.advance gateOpen r.loader.source r.site).1.record? else none)
            (work.advance gateOpen r.loader.source r.site).2 := by
        simp only [step, note_of_load hload]
        rw [Loader.advance_eq_put hload hwork]
        rfl
      have hwaiting :=
        WorkState.eq_waiting_of_work? ((h.stories position load hload).work.symm.trans hwork)
      have hbound := h.bound position load hload
      rw [standing, hwaiting] at hbound
      obtain ⟨hext, hbound'⟩ := Work.bound_advance gateOpen r.loader.source r.site hbound
      rw [hstep]
      exact h.touch_waiting hload hwork (.worked gateOpen r.site) rfl hext hbound'

/-- The work of a load breaks down. -/
theorem TrueToStories.crash (h : r.TrueToStories) (position : Nat) :
    (r.step (.crash position)).TrueToStories := by
  cases hload : r.loader.loads[position]? with
  | none =>
    have hsame : r.step (.crash position) = r := by
      have hcrash : r.loader.crash position = r.loader := Loader.update_of_none hload _
      simp only [step, note_of_none hload, hcrash]
    rw [hsame]
    exact h
  | some load =>
    have hcrash : r.loader.crash position =
        r.loader.put position (load.settle .crashed) none := Loader.update_eq_put hload _
    have hstep : r.step (.crash position) =
        r.touch position (load.settle .crashed) .crashed none r.site := by
      simp only [step, note_of_load hload, hcrash]
      rfl
    rw [hstep]
    cases hwork : load.work with
    | none =>
      have hfollows := h.stories position load hload
      have hended := WorkState.not_waiting_of_work? (hfollows.work.symm.trans hwork)
      rw [hfollows.settle_eq_self hended .crashed rfl]
      exact h.touch_ended hload hwork rfl
    | some work =>
      have hnone : (if load.answer.isSome
          then ((WorkState.waiting work).goOn r.loader.source .crashed).record? else none) = none :=
        ite_self none
      have hbroken := h.touch_waiting hload hwork .crashed rfl (.refl _) trivial
      rwa [hnone] at hbroken

/-- The limit of a load passes. -/
theorem TrueToStories.expire (h : r.TrueToStories) (position : Nat) :
    (r.step (.expire position)).TrueToStories := by
  cases hload : r.loader.loads[position]? with
  | none =>
    have hsame : r.step (.expire position) = r := by
      have hexpire : r.loader.expire position = r.loader := Loader.update_of_none hload _
      simp only [step, note_of_none hload, hexpire]
    rw [hsame]
    exact h
  | some load =>
    have hexpire : r.loader.expire position = r.loader.put position load.expire none :=
      Loader.update_eq_put hload _
    have hstep : r.step (.expire position) =
        r.touch position load.expire .expired none r.site := by
      simp only [step, note_of_load hload, hexpire]
      rfl
    have hpath : load.expire.path = load.path := by
      unfold Load.expire
      split <;> rfl
    have hlimit : load.expire.limit = load.limit := by
      unfold Load.expire
      split <;> rfl
    have hrecord : load.expire.lateRecord? r.loader.source (r.story position ++ [.expired]) =
        load.lateRecord? r.loader.source (r.story position) := by
      rw [← load.lateRecord?_expired]
      simp only [Load.lateRecord?, Load.timedOut, hpath, hlimit]
      rfl
    rw [hstep]
    refine h.touch hload (h.stories position load hload).expire (.inr ⟨hrecord, rfl⟩) (.refl _) ?_
    rw [hpath, Load.standing_append, WorkState.goOn_expired]
    exact h.bound position load hload

/-- **Every step keeps a run true to the stories of its loads.** -/
theorem TrueToStories.step (h : r.TrueToStories) (s : LoaderStep β) : (r.step s).TrueToStories := by
  cases s with
  | begin path limit => exact h.begin path limit
  | work position gateOpen => exact h.work position gateOpen
  | crash position => exact h.crash position
  | expire position => exact h.expire position
  | collect =>
    refine ⟨h.stories, h.unwritten, ?_, h.bound⟩
    have hall : (r.step .collect).collected.flatten ++ (r.step .collect).loader.late =
        r.collected.flatten ++ r.loader.late := by simp [LoaderRun.step, Loader.collect]
    rw [hall]
    exact h.late
  | call call =>
    have hext : r.site.container.ledger.Extends (r.site.container.perform call).2.ledger := by
      have hperform := r.site.container.ledger.extends_perform call
      rwa [Container.ledger_perform] at hperform
    exact ⟨h.stories, h.unwritten, h.late, fun q load hq => (h.bound q load hq).mono hext⟩
  | provide name type =>
    rcases hprovide : r.site.host.provide name type with e | ⟨shared, host⟩ <;>
      simp only [LoaderRun.step, hprovide]
    · exact h
    · exact ⟨h.stories, h.unwritten, h.late, h.bound⟩

theorem TrueToStories.run (h : r.TrueToStories) (steps : List (LoaderStep β)) :
    (r.run steps).TrueToStories := by
  induction steps generalizing r with
  | nil => exact h
  | cons s rest ih => exact ih (h.step s)

end LoaderRun

/-! ## What was answered stays answered -/

/-- A load keeps its path, its limit, and what its caller was told. -/
structure Load.KeepsAnswer (load load' : Load β) : Prop where
  path : load'.path = load.path
  limit : load'.limit = load.limit
  answer : ∀ record, load.answer = some record → load'.answer = some record

/-- A loader keeps its source, and each of its loads in its place. -/
structure Loader.KeepsLoads (l l' : Loader β) : Prop where
  source : l'.source = l.source
  loads : ∀ (position : Nat) (load : Load β), l.loads[position]? = some load →
    ∃ load' : Load β, l'.loads[position]? = some load' ∧ load.KeepsAnswer load'

namespace Load

theorem KeepsAnswer.refl (load : Load β) : load.KeepsAnswer load := ⟨rfl, rfl, fun _ h => h⟩

theorem keeps_settle (load : Load β) (state : WorkState β) : load.KeepsAnswer (load.settle state) :=
  ⟨rfl, rfl, fun record h => by simp [settle, h]⟩

theorem keeps_expire (load : Load β) : load.KeepsAnswer load.expire := by
  unfold expire
  split
  · exact .refl load
  · exact ⟨rfl, rfl, fun record h => by simp [h]⟩

end Load

namespace Loader

theorem KeepsLoads.refl (l : Loader β) : l.KeepsLoads l :=
  ⟨rfl, fun _ load h => ⟨load, h, .refl load⟩⟩

theorem KeepsLoads.trans {l₁ l₂ l₃ : Loader β} (h : l₁.KeepsLoads l₂) (h' : l₂.KeepsLoads l₃) :
    l₁.KeepsLoads l₃ := by
  refine ⟨h'.source.trans h.source, fun position load hload => ?_⟩
  obtain ⟨load₂, hload₂, hkeeps⟩ := h.loads position load hload
  obtain ⟨load₃, hload₃, hkeeps'⟩ := h'.loads position load₂ hload₂
  exact ⟨load₃, hload₃, hkeeps'.path.trans hkeeps.path, hkeeps'.limit.trans hkeeps.limit,
    fun record hrecord => hkeeps'.answer record (hkeeps.answer record hrecord)⟩

theorem keeps_put {l : Loader β} {position : Nat} {load load' : Load β}
    (hload : l.loads[position]? = some load) (h : load.KeepsAnswer load')
    (late : Option (ModuleRecord β)) : l.KeepsLoads (l.put position load' late) := by
  refine ⟨rfl, fun q load₁ hq => ?_⟩
  by_cases hqp : position = q
  · subst hqp
    obtain rfl : load = load₁ := Option.some.inj (hload.symm.trans hq)
    have hlt : position < l.loads.length := (List.getElem?_eq_some_iff.1 hload).1
    exact ⟨load', by simp [put, hlt], h⟩
  · exact ⟨load₁, by simpa [put, hqp] using hq, .refl load₁⟩

theorem keeps_update (l : Loader β) (position : Nat) {change : Load β → Load β}
    (h : ∀ load : Load β, load.KeepsAnswer (change load)) :
    l.KeepsLoads (l.update position change) := by
  cases hload : l.loads[position]? with
  | none => rw [update_of_none hload]; exact .refl l
  | some load => rw [update_eq_put hload]; exact keeps_put hload (h load) none

theorem keeps_advance (l : Loader β) (gateOpen : Bool) (s : Site β) (position : Nat) :
    l.KeepsLoads (l.advance gateOpen s position).1 := by
  cases hwork : l.loads[position]?.bind (·.work) with
  | none => rw [advance_of_ended hwork]; exact .refl l
  | some work =>
    obtain ⟨load, hload, hw⟩ := Option.bind_eq_some_iff.1 hwork
    rw [advance_eq_put hload hw]
    exact keeps_put hload (load.keeps_settle _) _

end Loader

namespace LoaderRun

variable {r r' : LoaderRun β}

theorem keeps_step (r : LoaderRun β) (s : LoaderStep β) :
    r.loader.KeepsLoads (r.step s).loader := by
  cases s with
  | begin path limit =>
    refine ⟨rfl, fun position load hload => ?_⟩
    have hlt := (List.getElem?_eq_some_iff.1 hload).1
    exact ⟨load, (List.getElem?_append_left hlt).trans hload, .refl load⟩
  | work position gateOpen => exact r.loader.keeps_advance gateOpen r.site position
  | crash position =>
    exact r.loader.keeps_update position fun load => load.keeps_settle .crashed
  | expire position => exact r.loader.keeps_update position fun load => load.keeps_expire
  | collect => exact ⟨rfl, fun _ load hload => ⟨load, hload, .refl load⟩⟩
  | call call => exact .refl r.loader
  | provide name type =>
    rcases hprovide : r.site.host.provide name type with e | ⟨shared, host⟩ <;>
      simp only [LoaderRun.step, hprovide] <;> exact .refl r.loader

theorem keeps_run (r : LoaderRun β) (steps : List (LoaderStep β)) :
    r.loader.KeepsLoads (r.run steps).loader := by
  induction steps generalizing r with
  | nil => exact .refl r.loader
  | cons s rest ih => exact (r.keeps_step s).trans (ih (r.step s))

end LoaderRun
end ModularHost
