import ModularHost.Proofs.Module.Background
/-!
# Loads without haste

A limit that passes decides who is given the record of a load and nothing else: the work does the
same to the site as if there had been no limit (`same_step`). So each load is answered once, with
what loading its module comes to or that it was out of time, and its record is collected once if it
came too late (`loads_answered_once`).
-/


namespace ModularHost

variable {β : Type}

/-! ## A limit that passes does nothing to the work -/

/-- Which paths the loads are of, and what work is left of each. -/
def Loader.outline (l : Loader β) : List (Path × Option (Work β)) :=
  l.loads.map fun load => (load.path, load.work)

theorem Loader.outline_put (l : Loader β) (position : Nat) (load : Load β)
    (late : Option (ModuleRecord β)) :
    (l.put position load late).outline = l.outline.set position (load.path, load.work) := by
  simp [outline, put, List.map_set]

namespace LoaderRun

variable {r r' : LoaderRun β}

/-- Two runs that are alike but for the limits that passed in one of them. -/
structure SameWork (r r' : LoaderRun β) : Prop where
  source : r'.loader.source = r.loader.source
  site : r'.site = r.site
  outline : r'.loader.outline = r.loader.outline
  log : r'.log = r.log.filter (!·.2.isExpired)

namespace SameWork

theorem length_eq (h : SameWork r r') : r'.loader.loads.length = r.loader.loads.length := by
  have hlength := congrArg List.length h.outline
  simpa [Loader.outline] using hlength

theorem load (h : SameWork r r') {position : Nat} {load : Load β}
    (hload : r.loader.loads[position]? = some load) :
    ∃ load', r'.loader.loads[position]? = some load' ∧ load'.path = load.path ∧
      load'.work = load.work := by
  have hat : r'.loader.outline[position]? = r.loader.outline[position]? := by rw [h.outline]
  simp only [Loader.outline, List.getElem?_map, hload] at hat
  obtain ⟨load', hload', heq⟩ := Option.map_eq_some_iff.1 hat
  exact ⟨load', hload', (Prod.mk.inj heq).1, (Prod.mk.inj heq).2⟩

theorem no_load (h : SameWork r r') {position : Nat}
    (hload : r.loader.loads[position]? = none) : r'.loader.loads[position]? = none := by
  rw [List.getElem?_eq_none_iff] at hload ⊢
  rw [h.length_eq]
  exact hload

theorem note (h : SameWork r r') (position : Nat) (moment : LoadMoment β)
    (hm : moment.isExpired = false) :
    r'.note position moment = (r.note position moment).filter (!·.2.isExpired) := by
  simp only [LoaderRun.note, h.length_eq, h.log]
  split
  · simp [hm]
  · rfl

/-- **Whatever else happens, happens to both alike.** -/
theorem same_step (h : SameWork r r') {s : LoaderStep β} (hs : s.isExpire = false) :
    SameWork (r.step s) (r'.step s) := by
  cases s with
  | begin path limit =>
    have houtline : (r'.loader.begin path limit).outline = (r.loader.begin path limit).outline := by
      have hold := h.outline
      simp only [Loader.outline, Loader.begin, List.map_append] at hold ⊢
      rw [hold]
    exact ⟨h.source, h.site, houtline, h.log⟩
  | work position gateOpen =>
    have hlog := h.note position (.worked gateOpen r.site) rfl
    cases hwork : r.loader.loads[position]?.bind (·.work) with
    | none =>
      have hwork' : r'.loader.loads[position]?.bind (·.work) = none := by
        cases hload : r.loader.loads[position]? with
        | none => rw [h.no_load hload]; rfl
        | some load =>
          obtain ⟨load', hload', -, heq⟩ := h.load hload
          rw [hload] at hwork
          rw [hload']
          exact heq.trans hwork
      simp only [LoaderRun.step, Loader.advance_of_ended hwork, Loader.advance_of_ended hwork',
        h.site]
      exact ⟨h.source, rfl, h.outline, hlog⟩
    | some work =>
      obtain ⟨load, hload, hw⟩ := Option.bind_eq_some_iff.1 hwork
      obtain ⟨load', hload', hpath, hw'⟩ := h.load hload
      simp only [LoaderRun.step, Loader.advance_eq_put hload hw,
        Loader.advance_eq_put hload' (hw'.trans hw), h.site, h.source]
      refine ⟨h.source, rfl, ?_, hlog⟩
      rw [Loader.outline_put, Loader.outline_put, h.outline]
      simp [Load.settle, hpath]
  | crash position =>
    have hlog := h.note position .crashed rfl
    cases hload : r.loader.loads[position]? with
    | none =>
      have hcrash : r.loader.crash position = r.loader := Loader.update_of_none hload _
      have hcrash' : r'.loader.crash position = r'.loader :=
        Loader.update_of_none (h.no_load hload) _
      simp only [LoaderRun.step, hcrash, hcrash']
      exact ⟨h.source, h.site, h.outline, hlog⟩
    | some load =>
      obtain ⟨load', hload', hpath, -⟩ := h.load hload
      have hcrash : r.loader.crash position = r.loader.put position (load.settle .crashed) none :=
        Loader.update_eq_put hload _
      have hcrash' : r'.loader.crash position =
          r'.loader.put position (load'.settle .crashed) none := Loader.update_eq_put hload' _
      simp only [LoaderRun.step, hcrash, hcrash']
      refine ⟨h.source, h.site, ?_, hlog⟩
      rw [Loader.outline_put, Loader.outline_put, h.outline]
      simp [Load.settle, hpath]
  | expire position => cases hs
  | collect => exact ⟨h.source, h.site, h.outline, h.log⟩
  | call call =>
    refine ⟨h.source, ?_, h.outline, h.log⟩
    simp only [LoaderRun.step, h.site]
  | provide name type =>
    rcases hprovide : r.site.host.provide name type with e | ⟨shared, host⟩ <;>
      simp only [LoaderRun.step, h.site, hprovide]
    · exact h
    · exact ⟨h.source, rfl, h.outline, h.log⟩

/-- A limit that passes is told to a caller, and that is all. -/
theorem expire (h : SameWork r r') (position : Nat) : SameWork (r.step (.expire position)) r' := by
  have hlog : r'.log = (r.note position .expired).filter (!·.2.isExpired) := by
    rw [h.log, LoaderRun.note]
    split
    · simp [LoadMoment.isExpired]
    · rfl
  refine ⟨h.source, h.site, ?_, hlog⟩
  rw [h.outline]
  cases hload : r.loader.loads[position]? with
  | none =>
    have hexpire : r.loader.expire position = r.loader := Loader.update_of_none hload _
    simp only [LoaderRun.step, hexpire]
  | some load =>
    have hexpire : r.loader.expire position = r.loader.put position load.expire none :=
      Loader.update_eq_put hload _
    have hsame : (load.expire.path, load.expire.work) = (load.path, load.work) := by
      unfold Load.expire
      split <;> rfl
    have hget : r.loader.outline[position]? = some (load.path, load.work) := by
      simp [Loader.outline, hload]
    obtain ⟨hlt, hget⟩ := List.getElem?_eq_some_iff.1 hget
    simp only [LoaderRun.step, hexpire]
    rw [Loader.outline_put, hsame, ← hget, List.set_getElem_self]

/-- **A run is at the same work as the run in which no limit passes.** -/
theorem run (h : SameWork r r') (steps : List (LoaderStep β)) :
    SameWork (r.run steps) (r'.run (steps.filter (!·.isExpire))) := by
  induction steps generalizing r r' with
  | nil => exact h
  | cons s rest ih =>
    cases hs : s.isExpire with
    | false =>
      rw [List.filter_cons_of_pos (by simp [hs])]
      exact ih (h.same_step hs)
    | true =>
      obtain ⟨position, rfl⟩ : ∃ position, s = .expire position := by
        cases s <;> first | exact ⟨_, rfl⟩ | cases hs
      rw [List.filter_cons_of_neg (by simp [hs])]
      exact ih (h.expire position)

end SameWork

end LoaderRun

/-- The limits that passed may be struck out of the story of a load. -/
theorem Loader.standing_filter (source : ModuleSource β) (path : Path)
    (story : List (LoadMoment β)) :
    standing source path (story.filter (!·.isExpired)) = standing source path story := by
  unfold standing
  generalize (WorkState.waiting (Work.queued path) : WorkState β) = state
  induction story generalizing state with
  | nil => rfl
  | cons moment rest ih =>
    cases moment with
    | worked gateOpen s => exact ih _
    | crashed => exact ih _
    | expired =>
      rw [List.foldl_cons, WorkState.goOn_expired]
      exact ih state

/-- No load is out of time as long as no limit has passed. -/
theorem WorkState.overruns_filter (source : ModuleSource β) (story : List (LoadMoment β)) :
    ∀ state : WorkState β, state.overruns source (story.filter (!·.isExpired)) = false := by
  induction story with
  | nil => intro state; rfl
  | cons moment rest ih =>
    intro state
    cases moment with
    | worked gateOpen s => exact ih _
    | crashed => exact ih _
    | expired => exact ih state

namespace LoaderRun

variable {r r' : LoaderRun β}

theorem SameWork.story (h : SameWork r r') (position : Nat) :
    r'.story position = (r.story position).filter (!·.isExpired) := by
  simp only [LoaderRun.story, h.log, List.filter_filter, List.filter_map]
  simp only [Function.comp_def, Bool.and_comm]

/-- The caller of a load is told how its work ended, where no limit passes. -/
theorem SameWork.answer (h : SameWork r r') (htrue : r'.TrueToStories) {position : Nat}
    {load : Load β}
    (hload : r.loader.loads[position]? = some load) :
    ∃ load', r'.loader.loads[position]? = some load' ∧ load'.path = load.path ∧
      load'.answer = (r.standing position load).verdict? load.path := by
  obtain ⟨load', hload', hpath, -⟩ := h.load hload
  have hin : load'.timedOut r'.loader.source (r'.story position) = false := by
    rw [h.story, Load.timedOut, WorkState.overruns_filter, Bool.and_false]
  have hanswer := (htrue.stories position load' hload').inTime hin
  rw [h.story, Loader.standing_filter, h.source, hpath] at hanswer
  exact ⟨load', hload', hpath, hanswer⟩

/-- **Every load is answered once, and its record is collected once if it came too late.** Whatever
happens to a loader, and in whatever order: a caller is told that its load is out of time if the
limit passed before the work had ended, that it was interrupted if the work broke down in time, and
otherwise the record with which loading the module ends; what it has been told stays so. What was
collected, with what is still to be collected, are the records of the work that ended after its
limit, one each; whoever collects takes all there are. A module that was loaded, in time or late,
has all that it registers in the container. Had no limit passed, the site would be the same, and
each caller would have been told how its work ended. -/
theorem loads_answered_once (source : ModuleSource β) (site : Site β)
    (steps later : List (LoaderStep β)) :
    let r := (start source site).run steps
    let unhurried := (start source site).run (steps.filter (!·.isExpire))
    (∀ position load, r.loader.loads[position]? = some load →
      (load.timedOut source (r.story position) = true → ∃ limit, load.limit = some limit ∧
        load.answer = some (.abandoned load.path (.timedOut limit))) ∧
      (load.timedOut source (r.story position) = false →
        load.answer = (r.standing position load).verdict? load.path) ∧
      (∀ gateOpen s rest, r.story position = .worked gateOpen s :: rest →
        r.standing position load =
          rest.foldl (WorkState.goOn source) (Loader.loadModule source gateOpen s load.path).1) ∧
      (∀ record m, r.standing position load = .finished record → record.outcome = .ok m →
        ∀ step ∈ m.registration, step.Bound r.site.container) ∧
      (∃ load', unhurried.loader.loads[position]? = some load' ∧ load'.path = load.path ∧
        load'.answer = (r.standing position load).verdict? load.path)) ∧
    r.loader.KeepsLoads (r.run later).loader ∧
    (r.collected.flatten ++ r.loader.late).Perm
      ((List.range r.loader.loads.length).filterMap r.lateRecord?) ∧
    (r.step .collect).collected = r.collected ++ [r.loader.late] ∧
    (r.step .collect).loader.late = [] ∧
    unhurried.site = r.site := by
  intro r unhurried
  have htrue : r.TrueToStories := (trueToStories_start source site).run steps
  have hsame : SameWork r unhurried :=
    SameWork.run ⟨rfl, rfl, rfl, rfl⟩ steps
  have hunhurried : unhurried.TrueToStories := (trueToStories_start source site).run _
  have hsource : r.loader.source = source := ((start source site).keeps_run steps).source
  refine ⟨fun position load hload => ?_, r.keeps_run later, htrue.late, rfl, rfl, hsame.site⟩
  have hfollows := htrue.stories position load hload
  rw [hsource] at hfollows
  have hstanding : r.standing position load =
      Loader.standing source load.path (r.story position) := by rw [standing, hsource]
  refine ⟨hfollows.late, ?_, ?_, ?_, hsame.answer hunhurried hload⟩
  · rw [hstanding]
    exact hfollows.inTime
  · intro gateOpen s rest hstory
    rw [hstanding, hstory]
    rfl
  · intro record m hrecord hm
    have hbound := htrue.bound position load hload
    rw [hrecord] at hbound
    exact hbound m hm

/-- A module that registers one implementation. -/
def slowModule : Declaration Unit :=
  ⟨hostAbi, "slow", "1.0.0", [], [], [.bindInstance ⟨⟨0, "Store"⟩, "Store"⟩ "main" ()]⟩

/-- A load is out of time before its work has done anything; another breaks down. -/
def slowSteps : List (LoaderStep Unit) :=
  [.begin ⟨"slow.module"⟩ (some (.ofSeconds 1)), .begin ⟨"slow.module"⟩ none, .expire 0, .crash 1,
    .collect, .work 0 true, .collect]

theorem loads_answered_once_slow :
    let r := (start (.linked ⟨[slowModule]⟩) default).run slowSteps
    ∃ load, r.loader.loads[0]? = some load ∧
      load.timedOut (.linked ⟨[slowModule]⟩) (r.story 0) = true ∧
      load.answer = some (.abandoned load.path (.timedOut (.ofSeconds 1))) ∧
      r.collected.map (·.map (·.isLoaded)) = [[], [true]] ∧
      ∃ record m, r.standing 0 load = .finished record ∧ record.outcome = .ok m ∧
        m.registration.length = 1 ∧ ∀ step ∈ m.registration, step.Bound r.site.container := by
  intro r
  obtain ⟨load, hload⟩ : ∃ load, r.loader.loads[0]? = some load :=
    Option.isSome_iff_exists.1 (by decide +kernel)
  obtain ⟨htold, -, -, hbound, -⟩ :=
    (loads_answered_once (.linked ⟨[slowModule]⟩) default slowSteps []).1 0 load hload
  -- what the run comes to at its first load
  have hlimit : r.loader.loads[0]?.bind (·.limit) = some (.ofSeconds 1) := by decide +kernel
  have hlate : r.loader.loads[0]?.any (fun load =>
      load.timedOut (.linked ⟨[slowModule]⟩) (r.story 0)) = true := by decide +kernel
  have hregistered : r.loader.loads[0]?.bind (fun load =>
      ((r.standing 0 load).record?.bind (·.module?)).map (·.registration.length)) = some 1 := by
    decide +kernel
  rw [hload] at hlimit hlate hregistered
  obtain ⟨limit, hsome, hanswer⟩ := htold hlate
  obtain rfl : limit = .ofSeconds 1 := Option.some.inj (hsome.symm.trans hlimit)
  obtain ⟨m, hm, hlength⟩ := Option.map_eq_some_iff.1 hregistered
  obtain ⟨record, hrecord, hmodule⟩ := Option.bind_eq_some_iff.1 hm
  have hfinished : r.standing 0 load = .finished record := by
    cases hstanding : r.standing 0 load with
    | finished record' => rw [hstanding] at hrecord; cases hrecord; rfl
    | crashed => rw [hstanding] at hrecord; cases hrecord
    | waiting work => rw [hstanding] at hrecord; cases hrecord
  have hloaded : record.outcome = .ok m := by
    cases houtcome : record.outcome with
    | ok m' => simp_all [ModuleRecord.module?, Except.toOption]
    | error cause => simp_all [ModuleRecord.module?, Except.toOption]
  exact ⟨load, hload, hlate, hanswer, by decide +kernel, record, m, hfinished, hloaded, hlength,
    hbound record m hfinished hloaded⟩

end LoaderRun
end ModularHost
