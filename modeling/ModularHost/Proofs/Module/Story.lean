import ModularHost.Module.Loader
/-!
# The story of a load

Some moments bear on a load that was begun: its work goes on, breaks down, or is out of time. What a
caller is told, and whether a record comes too late, is settled by these moments and their order
alone (`Load.FollowsStory`).
-/


namespace ModularHost

variable {β : Type}

/-! ## The story of one load -/

/-- Something that bears on one load. -/
inductive LoadMoment (β : Type) where
  /-- The work went on, with the gate and the site as they were. -/
  | worked (gateOpen : Bool) (site : Site β)
  /-- The work broke down for reasons of its own. -/
  | crashed
  /-- The limit passed. -/
  | expired

/-- The kind of moment that does nothing to the work. -/
def LoadMoment.isExpired : LoadMoment β → Bool
  | .expired => true
  | _ => false

namespace WorkState

/-- Whether the work has not ended. -/
def isWaiting : WorkState β → Bool
  | .waiting _ => true
  | _ => false

/-- The work that is left. -/
def work? : WorkState β → Option (Work β)
  | .waiting work => some work
  | _ => none

/-- The record the work ended with. -/
def record? : WorkState β → Option (ModuleRecord β)
  | .finished r => some r
  | _ => none

/-- What there is to tell of work that has ended. -/
def verdict? (path : Path) : WorkState β → Option (ModuleRecord β)
  | .finished r => some r
  | .crashed => some (.abandoned path .interrupted)
  | .waiting _ => none

/-- Work that has ended stays as it is. -/
def goOn (source : ModuleSource β) : WorkState β → LoadMoment β → WorkState β
  | .waiting work, .worked gateOpen s => (work.advance gateOpen source s).1
  | .waiting _, .crashed => .crashed
  | state, _ => state

/-- Whether the limit passes while the work has not ended. -/
def overruns (source : ModuleSource β) : WorkState β → List (LoadMoment β) → Bool
  | _, [] => false
  | state, moment :: rest =>
    (moment.isExpired && state.isWaiting) || (state.goOn source moment).overruns source rest

theorem overruns_append (source : ModuleSource β) (story : List (LoadMoment β))
    (moment : LoadMoment β) : ∀ state : WorkState β,
      state.overruns source (story ++ [moment]) = (state.overruns source story ||
        moment.isExpired && (story.foldl (goOn source) state).isWaiting) := by
  induction story with
  | nil => intro state; simp [overruns]
  | cons first rest ih =>
    intro state
    simp only [List.cons_append, overruns, ih, List.foldl_cons, Bool.or_assoc]

theorem goOn_expired (source : ModuleSource β) (state : WorkState β) :
    state.goOn source .expired = state := by
  cases state <;> rfl

theorem goOn_of_not_waiting (source : ModuleSource β) {state : WorkState β}
    (h : state.isWaiting = false) (moment : LoadMoment β) : state.goOn source moment = state := by
  cases state with
  | waiting work => cases h
  | finished r => rfl
  | crashed => rfl

theorem eq_waiting_of_work? {state : WorkState β} {work : Work β} (h : state.work? = some work) :
    state = .waiting work := by
  cases state <;> simp_all [work?]

theorem not_waiting_of_work? {state : WorkState β} (h : state.work? = none) :
    state.isWaiting = false := by
  cases state <;> simp_all [work?, isWaiting]

theorem isSome_verdict? (path : Path) (state : WorkState β) :
    (state.verdict? path).isSome = !state.isWaiting := by
  cases state <;> rfl

end WorkState

/-- How the work of a load stands after its story. -/
def Loader.standing (source : ModuleSource β) (path : Path) (story : List (LoadMoment β)) :
    WorkState β :=
  story.foldl (WorkState.goOn source) (.waiting (.queued path))

/-- Whether a load has a limit, and it passed before the work ended. -/
def Load.timedOut (load : Load β) (source : ModuleSource β) (story : List (LoadMoment β)) : Bool :=
  load.limit.isSome && WorkState.overruns source (.waiting (.queued load.path)) story

/-- The record that came too late for the caller of a load. -/
def Load.lateRecord? (load : Load β) (source : ModuleSource β) (story : List (LoadMoment β)) :
    Option (ModuleRecord β) :=
  if load.timedOut source story then (Loader.standing source load.path story).record? else none

/-- A load has the work that its story leaves, and its caller was told what the story comes to: that
it was out of time, if it was so first, and otherwise how the work ended. -/
structure Load.FollowsStory (load : Load β) (source : ModuleSource β)
    (story : List (LoadMoment β)) : Prop where
  work : load.work = (Loader.standing source load.path story).work?
  late : load.timedOut source story = true → ∃ limit, load.limit = some limit ∧
    load.answer = some (.abandoned load.path (.timedOut limit))
  inTime : load.timedOut source story = false →
    load.answer = (Loader.standing source load.path story).verdict? load.path

/-! ## One moment of a load -/

namespace Load

variable {load : Load β} {source : ModuleSource β} {story : List (LoadMoment β)}

/-- A load whose work stands otherwise, and whose caller is told so if it ended. -/
def settle (load : Load β) (state : WorkState β) : Load β :=
  { load with work := state.work?, answer := load.answer.or (state.verdict? load.path) }

/-- A load whose limit, if it has one, has passed. -/
def expire (load : Load β) : Load β :=
  match load.limit with
  | none => load
  | some limit =>
    { load with answer := load.answer.or (some (.abandoned load.path (.timedOut limit))) }

theorem standing_append (source : ModuleSource β) (path : Path) (story : List (LoadMoment β))
    (moment : LoadMoment β) :
    Loader.standing source path (story ++ [moment]) =
      (Loader.standing source path story).goOn source moment := by
  simp [Loader.standing]

theorem timedOut_append (load : Load β) (source : ModuleSource β) (story : List (LoadMoment β))
    (moment : LoadMoment β) :
    load.timedOut source (story ++ [moment]) = (load.timedOut source story ||
      (load.limit.isSome && moment.isExpired &&
        (Loader.standing source load.path story).isWaiting)) := by
  rw [timedOut, WorkState.overruns_append, timedOut, Loader.standing, Bool.and_or_distrib_left,
    Bool.and_assoc]

theorem timedOut_append_of_not_expired {moment : LoadMoment β} (h : moment.isExpired = false) :
    load.timedOut source (story ++ [moment]) = load.timedOut source story := by
  simp [timedOut_append, h]

/-- A caller has been told something, unless its load is still at work and was in time so far. -/
theorem FollowsStory.answer_isSome (h : load.FollowsStory source story) :
    load.answer.isSome = (load.timedOut source story ||
      !(Loader.standing source load.path story).isWaiting) := by
  cases ht : load.timedOut source story with
  | true =>
    obtain ⟨limit, -, hanswer⟩ := h.late ht
    simp [hanswer]
  | false => rw [h.inTime ht, WorkState.isSome_verdict?]; rfl

/-- **The work goes on, or breaks down.** The caller is told if it still waits. -/
theorem FollowsStory.settle (h : load.FollowsStory source story) {moment : LoadMoment β}
    (hm : moment.isExpired = false) :
    (load.settle ((Loader.standing source load.path story).goOn source moment)).FollowsStory source
      (story ++ [moment]) where
  work := by rw [standing_append]; rfl
  late := by
    intro ht
    obtain ⟨limit, hlimit, hanswer⟩ := h.late ((timedOut_append_of_not_expired hm).symm.trans ht)
    exact ⟨limit, hlimit, by rw [Load.settle, hanswer]; rfl⟩
  inTime := by
    intro ht
    have hanswer := h.inTime ((timedOut_append_of_not_expired hm).symm.trans ht)
    rw [standing_append, Load.settle, hanswer]
    cases hstate : Loader.standing source load.path story with
    | waiting work => rfl
    | finished r => rfl
    | crashed => rfl

/-- **The limit passes.** The caller is told if it still waits, and the work is left to go on. -/
theorem FollowsStory.expire (h : load.FollowsStory source story) :
    load.expire.FollowsStory source (story ++ [.expired]) := by
  have hstanding : Loader.standing source load.path (story ++ [.expired]) =
      Loader.standing source load.path story := by
    rw [standing_append, WorkState.goOn_expired]
  cases hlimit : load.limit with
  | none =>
    have hsame : load.expire = load := by simp [Load.expire, hlimit]
    have hnever : ∀ story, load.timedOut source story = false := by simp [timedOut, hlimit]
    rw [hsame]
    exact
      { work := by rw [hstanding]; exact h.work
        late := fun ht => by rw [hnever] at ht; cases ht
        inTime := fun _ => by rw [hstanding]; exact h.inTime (hnever _) }
  | some limit =>
    have hexpired : load.expire =
        { load with answer := load.answer.or (some (.abandoned load.path (.timedOut limit))) } := by
      simp [Load.expire, hlimit]
    have hout : load.timedOut source (story ++ [.expired]) = (load.timedOut source story ||
        (Loader.standing source load.path story).isWaiting) := by
      simp [timedOut_append, hlimit, LoadMoment.isExpired]
    have htold := h.answer_isSome
    rw [hexpired]
    refine ⟨?_, fun ht => ⟨limit, hlimit, ?_⟩, fun ht => ?_⟩
    · exact h.work.trans (congrArg _ hstanding.symm)
    · have ht' : load.timedOut source (story ++ [.expired]) = true := ht
      cases hbefore : load.timedOut source story with
      | true =>
        obtain ⟨limit', hlimit', hanswer⟩ := h.late hbefore
        obtain rfl : limit' = limit := Option.some.inj (hlimit'.symm.trans hlimit)
        simp [hanswer]
      | false =>
        -- the work has not ended, so the caller has not been told anything
        rw [hout, hbefore, Bool.false_or] at ht'
        rw [hbefore, ht'] at htold
        simp [Option.not_isSome_iff_eq_none.1 (by simpa using htold)]
    · have ht' : load.timedOut source (story ++ [.expired]) = false := ht
      rw [hout, Bool.or_eq_false_iff] at ht'
      have hanswer := h.inTime ht'.1
      rw [ht'.1, ht'.2] at htold
      obtain ⟨record, hrecord⟩ := Option.isSome_iff_exists.1 (by simpa using htold)
      have hverdict := hanswer.symm.trans hrecord
      have hgoal : load.answer.or (some (.abandoned load.path (.timedOut limit))) =
          (Loader.standing source load.path story).verdict? load.path := by
        rw [hrecord, hverdict]
        rfl
      exact hgoal.trans (congrArg _ hstanding.symm)

/-- A load that accounts for its story has a late record from the moment its work ends after the
limit. -/
theorem FollowsStory.lateRecord?_settle (h : load.FollowsStory source story) {moment : LoadMoment β}
    (hm : moment.isExpired = false) {work : Work β} (hw : load.work = some work) :
    load.lateRecord? source story = none ∧
      load.lateRecord? source (story ++ [moment]) = if load.answer.isSome
        then ((Loader.standing source load.path story).goOn source moment).record? else none := by
  have hwaiting := WorkState.eq_waiting_of_work? (h.work.symm.trans hw)
  have htold := h.answer_isSome
  rw [hwaiting] at htold
  refine ⟨by simp [lateRecord?, hwaiting, WorkState.record?], ?_⟩
  rw [lateRecord?, timedOut_append_of_not_expired hm, standing_append, htold]
  simp [WorkState.isWaiting]

theorem lateRecord?_expired (load : Load β) (source : ModuleSource β)
    (story : List (LoadMoment β)) :
    load.lateRecord? source (story ++ [.expired]) = load.lateRecord? source story := by
  rw [lateRecord?, standing_append, WorkState.goOn_expired, timedOut_append]
  cases hstate : Loader.standing source load.path story with
  | waiting work => simp [lateRecord?, hstate, WorkState.record?]
  | finished r => simp [lateRecord?, hstate, WorkState.isWaiting]
  | crashed => simp [lateRecord?, hstate, WorkState.isWaiting]

/-- Nothing more comes of work that has ended. -/
theorem FollowsStory.settle_eq_self (h : load.FollowsStory source story)
    (hended : (Loader.standing source load.path story).isWaiting = false) (state : WorkState β)
    (hstate : state.work? = none) : load.settle state = load := by
  have htold := h.answer_isSome
  rw [hended, Bool.not_false, Bool.or_true] at htold
  obtain ⟨record, hrecord⟩ := Option.isSome_iff_exists.1 htold
  have hwork : load.work = none := by
    rw [h.work]
    cases hs : Loader.standing source load.path story with
    | waiting work => rw [hs] at hended; cases hended
    | finished r => rfl
    | crashed => rfl
  cases load
  simp_all [Load.settle]

end Load
end ModularHost
