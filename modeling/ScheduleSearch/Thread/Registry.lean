import ScheduleSearch.Fault

/-!
# The registry of threads

The registry ties logical threads to the host threads that carry them, in both directions,
and counts the children of each thread, so that the next child gets the next number.
-/

namespace ScheduleSearch

/-- The number of a host thread. -/
abbrev Host : Type := Nat

/-- The logical threads of an execution and their host threads. -/
structure Registry where
  /-- The logical thread that a host thread carries. -/
  threads : Table Host ThreadId
  /-- The host thread that carries a logical thread. -/
  hosts : Table ThreadId Host
  /-- How many children a thread has spawned. -/
  spawned : Table ThreadId Nat
  deriving DecidableEq, Inhabited

namespace Registry

/-- No thread is known. -/
def empty : Registry := ⟨Table.empty, Table.empty, Table.empty⟩

/-- The identity of a new thread: the root, or the next child of a parent. -/
def allocate (registry : Registry) : Option ThreadId → ThreadId × Registry
  | none => (.root, registry)
  | some parent =>
      let seq := (registry.spawned.get? parent).getD 0
      (.child parent seq,
        { registry with spawned := registry.spawned.insert parent (seq + 1) })

def bind (registry : Registry) (host : Host) (thread : ThreadId) : Registry :=
  { registry with
    threads := registry.threads.insert host thread
    hosts := registry.hosts.insert thread host }

/-- A new thread, carried by `host` from the start. -/
def create (registry : Registry) (host : Host) (parent : Option ThreadId) :
    ThreadId × Registry :=
  let (thread, registry) := registry.allocate parent
  (thread, registry.bind host thread)

def threadOf? (registry : Registry) (host : Host) : Option ThreadId :=
  registry.threads.get? host

def hostOf? (registry : Registry) (thread : ThreadId) : Option Host :=
  registry.hosts.get? thread

def untrackedHost (host : Host) : Fault :=
  .untrackedThread ("host thread " ++ toString host)

def idFor (registry : Registry) (host : Host) : Except Fault ThreadId :=
  match registry.threadOf? host with
  | some thread => .ok thread
  | none => .error (untrackedHost host)

def threadFor (registry : Registry) (thread : ThreadId) : Except Fault Host :=
  match registry.hostOf? thread with
  | some host => .ok host
  | none => .error (.untrackedThread thread.name)

/-- Forgets what `host` carries, in both directions, and the children of that thread. -/
def terminate (registry : Registry) (host : Host) : Except Fault (ThreadId × Registry) :=
  match registry.threadOf? host with
  | none => .error (untrackedHost host)
  | some thread =>
      .ok (thread,
        { threads := registry.threads.erase host
          hosts := registry.hosts.erase thread
          spawned := registry.spawned.erase thread })

/-- Forgets a thread and its children, and the host thread that carries it. -/
def forget (registry : Registry) (thread : ThreadId) : Option Host × Registry :=
  let spawned := registry.spawned.erase thread
  match registry.hostOf? thread with
  | none => (none, { registry with spawned := spawned })
  | some host =>
      (some host,
        { threads := registry.threads.erase host
          hosts := registry.hosts.erase thread
          spawned := spawned })

/-- Whether some host thread carries `thread`. -/
def isBound (registry : Registry) (thread : ThreadId) : Bool :=
  registry.hosts.contains thread

/-- The number of logical threads that are carried by a host thread. -/
def size (registry : Registry) : Nat :=
  registry.hosts.size

/-- Whether no logical thread is carried by a host thread. -/
def isEmpty (registry : Registry) : Bool :=
  registry.hosts.isEmpty

end Registry

end ScheduleSearch
