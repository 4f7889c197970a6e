import Kookr.Lib.OrderedMap

/-! The lock of the lesson spool (`acquireSpoolLock` of `src/core/lesson-write-spool.ts`), one file operation at a time.
Claims are numbered, for each has a name of its own. A process is known by its position, and pids may be used again.
What a directory listing contains of the claims that come or go meanwhile, what the test of a process that has died
answers, and when a caller gives up, is open; a process that lives is never found dead. -/

namespace Kookr.Core

open Kookr.Lib

structure SpoolLockHolder where
  pid : ℕ
  generation : String
  deriving DecidableEq

structure SpoolProcess where
  pid : ℕ
  generation : String
  alive : Bool
  /-- The path is in `heldLocalSpoolLocks`. -/
  heldLocal : Bool

/-- Where a caller stands; `claim` is its own. -/
inductive SpoolStage where
  /-- The local lock is held, and an attempt is to come. -/
  | locked
  | published (claim : ℕ)
  /-- The directory is being read; with what it had at the start. -/
  | listing (claim : ℕ) (existing : List ℕ)
  | checking (claim : ℕ) (names : List ℕ) (busy : Bool)
  | probing (claim name : ℕ) (holder : SpoolLockHolder) (names : List ℕ) (busy : Bool)
  | removing (claim name : ℕ) (names : List ℕ) (busy : Bool)
  | withdrawing (claim : ℕ)
  /-- Between two attempts. -/
  | waiting
  | holding (claim : ℕ)
  | releasing (claim : ℕ)
  /-- The claim is gone, and the local lock is still held. -/
  | unlocking
  | done
  deriving DecidableEq

structure SpoolCaller where
  process : ℕ
  stage : SpoolStage

structure SpoolLock where
  processes : List SpoolProcess
  callers : List SpoolCaller
  claims : OrderedMap ℕ SpoolLockHolder
  /-- How many claims there have been. -/
  published : ℕ

inductive SpoolEvent where
  | spawn (pid : ℕ) (generation : String)
  | crash (process : ℕ)
  /-- A call finds the local lock free. -/
  | acquireLocal (process : ℕ)
  /-- The generation of the own process is not found. -/
  | unidentified (caller : ℕ)
  /-- `mkdir` and `symlink`. -/
  | publish (caller : ℕ)
  | startListing (caller : ℕ)
  | endListing (caller : ℕ) (names : List ℕ)
  | readlink (caller : ℕ)
  | probed (caller : ℕ) (live : Bool)
  | remove (caller : ℕ)
  /-- All names are checked. -/
  | finish (caller : ℕ)
  | withdraw (caller : ℕ)
  | retry (caller : ℕ)
  | giveUp (caller : ℕ)
  | release (caller : ℕ)
  | removeOwn (caller : ℕ)
  | unlock (caller : ℕ)

namespace SpoolLock

def start : SpoolLock := ⟨[], [], .empty, 0⟩

variable (s : SpoolLock)

/-- A process of that pid and generation lives. -/
def isSpoolClaimLive (holder : SpoolLockHolder) : Bool :=
  s.processes.any fun p => p.alive && p.pid = holder.pid && p.generation = holder.generation

def setLocal (process : ℕ) (held : Bool) : SpoolLock :=
  { s with processes := s.processes.modify process fun p => { p with heldLocal := held } }

def goto (c : ℕ) (caller : SpoolCaller) (stage : SpoolStage) : SpoolLock := { s with callers := s.callers.set c { caller with stage } }

/-- A crash ends the calls of the process, and leaves its claims. -/
def crash (process : ℕ) : SpoolLock :=
  { s with
    processes := s.processes.modify process fun p => { p with alive := false }
    callers := s.callers.map fun caller => if caller.process = process then { caller with stage := .done } else caller }

def acquireLocal (process : ℕ) : Option SpoolLock :=
  (s.processes[process]?).bind fun p =>
    if p.alive && !p.heldLocal then some { s.setLocal process true with callers := s.callers ++ [⟨process, .locked⟩] } else none

def publish (c : ℕ) (caller : SpoolCaller) : Option SpoolLock :=
  (s.processes[caller.process]?).map fun p => { s.goto c caller (.published s.published) with
    claims := s.claims.set s.published ⟨p.pid, p.generation⟩, published := s.published + 1 }

/-- A listing has what was there at the start and was not removed meanwhile. -/
def endListing (c : ℕ) (caller : SpoolCaller) (claim : ℕ) (existing names : List ℕ) : Option SpoolLock :=
  if (∀ name ∈ existing, s.claims.has name → name ∈ names) ∧ ∀ name ∈ names, name < s.published then
    some (s.goto c caller (.checking claim names false))
  else none

/-- A claim that is gone has no holder. -/
def readlink (c : ℕ) (caller : SpoolCaller) (claim name : ℕ) (names : List ℕ) (busy : Bool) : SpoolLock :=
  if name = claim then s.goto c caller (.checking claim names busy)
  else
    match s.claims.get name with
    | none => s.goto c caller (.removing claim name names busy)
    | some holder => s.goto c caller (.probing claim name holder names busy)

def probed (c : ℕ) (caller : SpoolCaller) (claim name : ℕ) (holder : SpoolLockHolder) (names : List ℕ) (busy live : Bool) : Option SpoolLock :=
  if live then some (s.goto c caller (.checking claim names true))
  else if s.isSpoolClaimLive holder then none
  else some (s.goto c caller (.removing claim name names busy))

def remove (name : ℕ) : SpoolLock := { s with claims := s.claims.delete name }

/-- Nothing when the caller does not stand where the event happens. -/
def step : SpoolLock → SpoolEvent → Option SpoolLock
  | s, .spawn pid generation => some { s with processes := s.processes ++ [⟨pid, generation, true, false⟩] }
  | s, .crash process => some (s.crash process)
  | s, .acquireLocal process => s.acquireLocal process
  | s, .unidentified c => (s.callers[c]?).bind fun caller =>
    match caller.stage with
    | .locked => some (s.goto c caller .unlocking)
    | _ => none
  | s, .publish c => (s.callers[c]?).bind fun caller =>
    match caller.stage with
    | .locked => s.publish c caller
    | _ => none
  | s, .startListing c => (s.callers[c]?).bind fun caller =>
    match caller.stage with
    | .published claim => some (s.goto c caller (.listing claim s.claims.keys))
    | _ => none
  | s, .endListing c names => (s.callers[c]?).bind fun caller =>
    match caller.stage with
    | .listing claim existing => s.endListing c caller claim existing names
    | _ => none
  | s, .readlink c => (s.callers[c]?).bind fun caller =>
    match caller.stage with
    | .checking claim (name :: names) busy => some (s.readlink c caller claim name names busy)
    | _ => none
  | s, .probed c live => (s.callers[c]?).bind fun caller =>
    match caller.stage with
    | .probing claim name holder names busy => s.probed c caller claim name holder names busy live
    | _ => none
  | s, .remove c => (s.callers[c]?).bind fun caller =>
    match caller.stage with
    | .removing claim name names busy => some ((s.remove name).goto c caller (.checking claim names busy))
    | _ => none
  | s, .finish c => (s.callers[c]?).bind fun caller =>
    match caller.stage with
    | .checking claim [] busy => some (s.goto c caller (if busy then .withdrawing claim else .holding claim))
    | _ => none
  | s, .withdraw c => (s.callers[c]?).bind fun caller =>
    match caller.stage with
    | .withdrawing claim => some ((s.remove claim).goto c caller .waiting)
    | _ => none
  | s, .retry c => (s.callers[c]?).bind fun caller =>
    match caller.stage with
    | .waiting => some (s.goto c caller .locked)
    | _ => none
  | s, .giveUp c => (s.callers[c]?).bind fun caller =>
    match caller.stage with
    | .waiting => some (s.goto c caller .unlocking)
    | _ => none
  | s, .release c => (s.callers[c]?).bind fun caller =>
    match caller.stage with
    | .holding claim => some (s.goto c caller (.releasing claim))
    | _ => none
  | s, .removeOwn c => (s.callers[c]?).bind fun caller =>
    match caller.stage with
    | .releasing claim => some ((s.remove claim).goto c caller .unlocking)
    | _ => none
  | s, .unlock c => (s.callers[c]?).bind fun caller =>
    match caller.stage with
    | .unlocking => some ((s.setLocal caller.process false).goto c caller .done)
    | _ => none

end SpoolLock

end Kookr.Core
