import ModularHost.Module.Site
/-!
# Loading

One module, one context: a load creates a context, loads the module into it and runs the module's
registration. When anything goes wrong the context is unloaded and the record says what it was;
bindings registered before that stay in the container, and then the record keeps hold of the module
whose code they may run.

Loads may run in the background. Each is begun once and answered once: with the record of its work,
or, when its time limit passes first, with a record that says so. Work that finishes after its
limit leaves its record with the loader, to be collected once.
-/

namespace ModularHost

/-- The result of one load. -/
structure ModuleRecord (β : Type) where
  path : Path
  /-- The context of the module; none when the load was not seen to its end. -/
  context : Option ContextId
  outcome : Except LoadCause (LoadedModule β)
  /-- The module whose registration did not come to a good end. -/
  residue : Option (LoadedModule β)

namespace ModuleRecord

variable {β : Type}

def module? (r : ModuleRecord β) : Option (LoadedModule β) := r.outcome.toOption

def isLoaded (r : ModuleRecord β) : Bool := r.module?.isSome

/-- The record of a load that was given up. -/
def abandoned (path : Path) (cause : LoadCause) : ModuleRecord β :=
  ⟨path, none, .error cause, none⟩

/-- Whether the record holds a module's lease. -/
def holds (r : ModuleRecord β) (lease : Lease) : Bool :=
  (r.module?.toList ++ r.residue.toList).any (·.lease == lease)

end ModuleRecord

/-- The work of a load, as far as it has come. -/
inductive Work (β : Type) where
  | queued (path : Path)
  | admitting (draft : Draft β) (requirements exports : List Describer)
  | registering (module : LoadedModule β) (steps : List (RegisterStep β))

/-- How the work of a load stands. -/
inductive WorkState (β : Type) where
  | finished (record : ModuleRecord β)
  /-- Code of the module panicked where nothing catches it. -/
  | crashed
  | waiting (work : Work β)

namespace Work

variable {β : Type}

/-- The load fails: its context is unloaded. -/
def fail (s : Site β) (path : Path) (id : ContextId) (cause : LoadCause)
    (residue : Option (LoadedModule β)) : WorkState β × Site β :=
  (.finished ⟨path, some id, .error cause, residue⟩, (s.unload (fun _ => false) id).2)

/-- Runs the registration of an admitted module. -/
def register (gateOpen : Bool) (s : Site β) (m : LoadedModule β) (steps : List (RegisterStep β)) :
    WorkState β × Site β :=
  match s.register gateOpen steps with
  | (.completed, s) => (.finished ⟨m.path, some m.context, .ok m, none⟩, s)
  | (.refused e, s) => fail s m.path m.context (.registration e) (some m)
  | (.panicked p, s) => fail s m.path m.context (.panicked p) (some m)
  | (.waiting steps, s) => (.waiting (.registering m steps), s)

/-- Goes on from where an admission stands. -/
def admitted (gateOpen : Bool) (s : Site β) (path : Path) (id : ContextId) :
    Admission β → WorkState β × Site β
  | .admitted _ m => register gateOpen s m m.registration
  | .refused cause => fail s path id cause none
  | .crashed _ => (.crashed, s)
  | .waiting draft requirements exports => (.waiting (.admitting draft requirements exports), s)

/-- Works on until the load ends or comes to a shut gate. -/
def advance (gateOpen : Bool) (source : ModuleSource β) (s : Site β) :
    Work β → WorkState β × Site β
  | .queued path =>
    let (c, s) := s.createContext source
    let (admission, s) := s.load gateOpen c path
    admitted gateOpen s path c.id admission
  | .admitting draft requirements exports =>
    let admission := draft.requireAll gateOpen s.host exports requirements
    admitted gateOpen (s.settle admission) draft.path draft.context.id admission
  | .registering m steps => register gateOpen s m steps

end Work

/-- A load that was begun. -/
structure Load (β : Type) where
  path : Path
  limit : Option Duration
  /-- The work that is left; none once it has ended. -/
  work : Option (Work β)
  /-- What the caller was answered. -/
  answer : Option (ModuleRecord β)

/-- Which modules to load, and for how long to wait for each. -/
structure LoadOptions where
  /-- The names to load; when there are none, all. -/
  whitelist : List String
  timeout : Option Duration

/-- Whether a path is one to load: its stem, or its stem without the library mark, is listed. -/
def LoadOptions.admits (o : LoadOptions) (path : Path) : Bool :=
  if o.whitelist.isEmpty then true
  else match path.stem? with
    | none => false
    | some stem =>
      o.whitelist.any fun name => name == stem || name == (withoutMark? stem).getD stem

/-- A loader: where its modules come from, the loads begun in the background, and the records that
came too late for their callers. -/
structure Loader (β : Type) where
  source : ModuleSource β
  loads : List (Load β)
  late : List (ModuleRecord β)

namespace Loader

variable {β : Type}

def new (source : ModuleSource β) : Loader β := ⟨source, [], []⟩

/-- Loads one module and waits for it. -/
def loadModule (source : ModuleSource β) (gateOpen : Bool) (s : Site β) (path : Path) :
    WorkState β × Site β :=
  Work.advance gateOpen source s (.queued path)

/-! ## In the background -/

/-- Begins a load; it is called by its position. -/
def begin (l : Loader β) (path : Path) (limit : Option Duration) : Loader β :=
  { l with loads := l.loads ++ [⟨path, limit, some (.queued path), none⟩] }

/-- Changes the load at a position. -/
def update (l : Loader β) (position : Nat) (change : Load β → Load β) : Loader β :=
  { l with loads := l.loads.modify position change }

/-- The work of a load ends with a record: it goes to the caller, or is late. -/
def complete (l : Loader β) (position : Nat) (record : ModuleRecord β) : Loader β :=
  match l.loads[position]? with
  | none => l
  | some load =>
    let l := l.update position fun load =>
      { load with work := none, answer := load.answer.or (some record) }
    if load.answer.isSome then { l with late := l.late ++ [record] } else l

/-- The work of a load crashes: the caller is told, if it still waits. -/
def crash (l : Loader β) (position : Nat) : Loader β :=
  l.update position fun load =>
    { load with
      work := none
      answer := load.answer.or (some (.abandoned load.path .interrupted)) }

/-- The time limit of a load passes: the caller is told, if it still waits. -/
def expire (l : Loader β) (position : Nat) : Loader β :=
  l.update position fun load =>
    match load.limit with
    | none => load
    | some limit =>
      { load with answer := load.answer.or (some (.abandoned load.path (.timedOut limit))) }

/-- Works on a load that has not ended. -/
def advance (l : Loader β) (gateOpen : Bool) (s : Site β) (position : Nat) : Loader β × Site β :=
  match l.loads[position]?.bind (·.work) with
  | none => (l, s)
  | some work =>
    match work.advance gateOpen l.source s with
    | (.finished record, s) => (l.complete position record, s)
    | (.crashed, s) => (l.crash position, s)
    | (.waiting work, s) => (l.update position fun load => { load with work := some work }, s)

/-- Works on every load that has not ended, in the order they were begun. -/
def advanceAll (l : Loader β) (gateOpen : Bool) (s : Site β) : Loader β × Site β :=
  (List.range l.loads.length).foldl (fun (l, s) position => l.advance gateOpen s position) (l, s)

/-- What the caller of a load was answered. -/
def answer? (l : Loader β) (position : Nat) : Option (ModuleRecord β) :=
  l.loads[position]?.bind (·.answer)

/-- Hands over the late records. -/
def collect (l : Loader β) : List (ModuleRecord β) × Loader β :=
  (l.late, { l with late := [] })

/-- Loads a module in the background and waits for the answer. Work that stands at a shut gate
outlasts any limit; without a limit there is no answer. -/
def loadWithin (l : Loader β) (gateOpen : Bool) (s : Site β) (path : Path)
    (limit : Option Duration) : Option (ModuleRecord β) × Loader β × Site β :=
  let position := l.loads.length
  let (l, s) := (l.begin path limit).advance gateOpen s position
  let l := l.expire position
  (l.answer? position, l, s)

/-! ## Many modules -/

/-- Loads the paths that the options admit, each into a context of its own. -/
def loadPaths (l : Loader β) (gateOpen : Bool) (s : Site β) (options : LoadOptions) :
    List Path → List (ModuleRecord β) × Loader β × Site β
  | [] => ([], l, s)
  | path :: rest =>
    if options.admits path then
      let (answer, l, s) := l.loadWithin gateOpen s path options.timeout
      let (records, l, s) := l.loadPaths gateOpen s options rest
      (answer.toList ++ records, l, s)
    else l.loadPaths gateOpen s options rest

end Loader
end ModularHost
