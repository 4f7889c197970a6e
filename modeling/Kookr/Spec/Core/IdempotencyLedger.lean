import Kookr.Lib.JsonFields
import Kookr.Lib.JsonNumber
import Kookr.Lib.OrderedMap
import Kookr.Lib.Exec
import Mathlib.Data.List.Sort

/-! The idempotency ledger (`src/core/idempotency-ledger.ts`): its entries in memory, and the file
that keeps the finalized ones. A pending entry knows the number of the promise that its waiters
wait for. The limits are what `normalizePositiveInteger` has made of the options. -/

namespace Kookr.Core

open Kookr.Lib

structure FinalizedState where
  createdAtMs : Timestamp
  taskId : String
  duplicate : Bool
  deriving DecidableEq

inductive LedgerState where
  | pending (createdAtMs : Timestamp) (promise : ℕ)
  | finalized (entry : FinalizedState)
  deriving DecidableEq

def LedgerState.finalized? : LedgerState → Option FinalizedState
  | .finalized entry => some entry
  | .pending .. => none

inductive IdempotencyReservation where
  | own
  | wait (promise : ℕ)
  | replay (taskId : String) (duplicate : Bool)
  deriving DecidableEq

/-- What the ledger uses of the language's library. -/
structure LedgerRuntime where
  localeCompare : String → String → ℤ
  /-- `Date.parse`; `none` is `NaN`. -/
  dateParse : String → Option Timestamp
  dateParse_toISOString : ∀ t, dateParse (String.ofList (IsoDate.toISOString t)) = some t

structure IdempotencyLedger where
  ttlMs : ℕ
  maxEntries : ℕ
  state : OrderedMap String LedgerState

namespace IdempotencyLedger

variable (runtime : LedgerRuntime) (ledger : IdempotencyLedger)

def isExpired (ttlMs : ℕ) (now : Timestamp) (entry : FinalizedState) : Bool := now.ms - entry.createdAtMs.ms > ttlMs

/-- A pending entry does not expire. -/
def isStale (ttlMs : ℕ) (now : Timestamp) : LedgerState → Bool
  | .finalized entry => isExpired ttlMs now entry
  | .pending .. => false

/-- How many entries were removed, and what is left. -/
def compactExpired (now : Timestamp) : ℕ × IdempotencyLedger :=
  (ledger.state.entries.countP fun e => isStale ledger.ttlMs now e.2,
    { ledger with state := ledger.state.filter fun _ state => !isStale ledger.ttlMs now state })

/-- The finalized entries, in the order of the map. -/
def finalized : List (String × FinalizedState) :=
  ledger.state.entries.filterMap fun e => e.2.finalized?.map fun entry => (e.1, entry)

/-- The oldest first, and then by key. -/
def evictsBefore (a b : String × FinalizedState) : Prop :=
  if a.2.createdAtMs ≠ b.2.createdAtMs then a.2.createdAtMs.ms ≤ b.2.createdAtMs.ms else runtime.localeCompare a.1 b.1 ≤ 0

instance (a b : String × FinalizedState) : Decidable (evictsBefore runtime a b) :=
  inferInstanceAs (Decidable (if a.2.createdAtMs ≠ b.2.createdAtMs then a.2.createdAtMs.ms ≤ b.2.createdAtMs.ms
    else runtime.localeCompare a.1 b.1 ≤ 0))

/-- The oldest of the finalized entries, as many as there are too many. -/
def evicted : List (String × FinalizedState) :=
  (ledger.finalized.insertionSort (evictsBefore runtime)).take (ledger.finalized.length - ledger.maxEntries)

/-- How many entries were evicted, and what is left. -/
def compactBySize : ℕ × IdempotencyLedger :=
  if ledger.finalized.length ≤ ledger.maxEntries then (0, ledger)
  else
    (ledger.finalized.length - ledger.maxEntries,
      { ledger with state := ledger.state.filter fun key _ => key ∉ (ledger.evicted runtime).map Prod.fst })

/-- `promise` is the number of the promise that is made for a new owner. -/
def reserveOrWait (now : Timestamp) (promise : ℕ) (key : String) : IdempotencyReservation × IdempotencyLedger :=
  let compacted := (ledger.compactExpired now).2
  match compacted.state.get key with
  | some (.finalized existing) => (.replay existing.taskId existing.duplicate, compacted)
  | some (.pending _ existing) => (.wait existing, compacted)
  | none => (.own, { compacted with state := compacted.state.set key (.pending now promise) })

/-- The owner's `finalize`, up to its wait for the file. -/
def finalize (key : String) (entry : FinalizedState) : IdempotencyLedger :=
  (compactBySize runtime { ledger with state := ledger.state.set key (.finalized entry) }).2

/-- `release` and `clear`. -/
def delete (key : String) : IdempotencyLedger := { ledger with state := ledger.state.delete key }

/-- How many entries were removed, and what is left. -/
def configure (now : Timestamp) (ttlMs maxEntries : ℕ) : ℕ × IdempotencyLedger :=
  let (expired, ledger) := compactExpired { ledger with ttlMs, maxEntries } now
  let (evicted, ledger) := compactBySize runtime ledger
  (expired + evicted, ledger)

def SCHEMA_VERSION : ℤ := 1

/-- The keys that an object lists first, in the order of their numbers. -/
def arrayIndex (key : String) : Option ℕ :=
  let n := Nat.ofDigitChars 10 key.toList 0
  if toString n = key ∧ n < 2 ^ 32 - 1 then some n else none

/-- `Object.entries` of an object with these properties, and the order of `JSON.stringify`. -/
def ownEntries (properties : OrderedMap String Json) : List (String × Json) :=
  (properties.entries.filter fun e => (arrayIndex e.1).isSome).insertionSort
      (fun a b => (arrayIndex a.1).getD 0 ≤ (arrayIndex b.1).getD 0) ++
    properties.entries.filter fun e => (arrayIndex e.1).isNone

/-- `object[key] = value` for an object: under `__proto__` it sets the prototype, and there is no
such property. -/
def assign (properties : OrderedMap String Json) (key : String) (value : Json) : OrderedMap String Json :=
  if key = "__proto__" then properties else properties.set key value

def entryJson (entry : FinalizedState) : Json :=
  .obj ([("taskId", .str entry.taskId), ("createdAt", .date entry.createdAtMs)] ++
    opt "duplicate" (if entry.duplicate then some (.bool true) else none))

/-- What `persist` writes for the finalized entries. -/
def fileText (entries : List (String × FinalizedState)) : List Char :=
  let properties := entries.foldl (fun properties e => assign properties e.1 (entryJson e.2)) .empty
  Json.stringify (.obj
    [("schemaVersion", .num (.ofInt SCHEMA_VERSION)), ("entries", .obj (ownEntries properties))])

/-- An entry of the file that `isValidEntry` accepts, as it is read. -/
def readEntry (value : Json) : Option FinalizedState :=
  match value.textAt "taskId", (value.textAt "createdAt").bind runtime.dateParse, value.get "duplicate" with
  | some taskId, some createdAtMs, none => if taskId.length > 0 then some ⟨createdAtMs, taskId, false⟩ else none
  | some taskId, some createdAtMs, some (.bool true) => if taskId.length > 0 then some ⟨createdAtMs, taskId, true⟩ else none
  | _, _, _ => none

/-- `Object.entries` of a value that was read. A repeated key keeps its last value. -/
def objectEntries : Json → List (String × Json)
  | .obj members => ownEntries (members.foldl (fun properties m => properties.set m.1 m.2) .empty)
  | .arr items => items.zipIdx.map fun (item, i) => (toString i, item)
  | _ => []

/-- The valid entries of the file; a file that cannot be used has none. -/
def readFile (file : Option (List Char)) : List (String × FinalizedState) :=
  match file.bind Json.parse with
  | none => []
  | some loaded =>
    if ((loaded.get "schemaVersion").bind Json.asNum).bind NumLit.toInt = some SCHEMA_VERSION then
      (((loaded.get "entries").map objectEntries).getD []).filterMap fun e =>
        (readEntry runtime e.2).map fun entry => (e.1, entry)
    else []

/-- The map of the entries that have not expired. -/
def freshState (ttlMs : ℕ) (now : Timestamp) (entries : List (String × FinalizedState)) : OrderedMap String LedgerState :=
  (entries.filter fun e => !isExpired ttlMs now e.2).foldl (fun state e => state.set e.1 (.finalized e.2)) .empty

/-- How many entries were left out, and the ledger. -/
def load (file : Option (List Char)) (ttlMs maxEntries : ℕ) (now : Timestamp) : ℕ × IdempotencyLedger :=
  let entries := readFile runtime file
  let (evicted, ledger) := compactBySize runtime ⟨ttlMs, maxEntries, freshState ttlMs now entries⟩
  (entries.countP (fun e => isExpired ttlMs now e.2) + evicted, ledger)

end IdempotencyLedger

end Kookr.Core

/-! A ledger and its file (`persist` in `src/core/idempotency-ledger.ts`, `atomicWriteFile` in
`src/core/persistence-utils.ts`). The persists wait for one another in a row; each reads the map when
its turn has come, writes a new file, renames it over the old one and syncs the directory, and may
fail before or after the rename. An owner settles its reservation once, and only finalized entries
are cleared. -/

namespace Kookr.Core

open Kookr.Lib

/-- The persist that has its turn. -/
structure Write where
  text : List Char
  renamed : Bool

structure LedgerWorld where
  ledger : IdempotencyLedger
  /-- `Date.now()`. -/
  now : Timestamp
  file : Option (List Char)
  /-- How many persists wait for their turn. -/
  waiting : ℕ
  writing : Option Write
  /-- Whether the last persist that has settled succeeded. -/
  lastPersist : Option Bool

namespace LedgerWorld

inductive Event where
  | reserve (key : String)
  | finalize (key taskId : String) (duplicate : Bool)
  | release (key : String)
  | clear (key : String)
  | configure (ttlMs maxEntries : ℕ)
  | tick (now : Timestamp)
  | snapshot
  | rename
  | written (ok : Bool)

variable (runtime : LedgerRuntime) (w : LedgerWorld)

def persist : LedgerWorld := { w with waiting := w.waiting + 1 }

def persistIf (changed : Bool) : LedgerWorld := if changed then w.persist else w

/-- A file that is no JSON is put aside. -/
def boot (file : Option (List Char)) (ttlMs maxEntries : ℕ) (now : Timestamp) : LedgerWorld :=
  let (removed, ledger) := IdempotencyLedger.load runtime file ttlMs maxEntries now
  persistIf ⟨ledger, now, file.filter fun text => (Json.parse text).isSome, 0, none, none⟩ (removed > 0)

def reserve (key : String) : LedgerWorld :=
  persistIf { w with ledger := (w.ledger.reserveOrWait w.now 0 key).2 } ((w.ledger.compactExpired w.now).1 > 0)

def settle (key : String) (f : Timestamp → LedgerWorld) : Option LedgerWorld :=
  match w.ledger.state.get key with
  | some (.pending createdAtMs _) => some (f createdAtMs)
  | _ => none

def clear (key : String) : Option LedgerWorld :=
  match w.ledger.state.get key with
  | some (.pending ..) => none
  | some (.finalized _) => some (persist { w with ledger := w.ledger.delete key })
  | none => some w

def configure (ttlMs maxEntries : ℕ) : LedgerWorld :=
  let (removed, ledger) := w.ledger.configure runtime w.now ttlMs maxEntries
  persistIf { w with ledger } (removed > 0)

/-- The next persist reads the map. -/
def snapshot : Option LedgerWorld :=
  match w.writing, w.waiting with
  | none, waiting + 1 => some { w with waiting, writing := some ⟨IdempotencyLedger.fileText w.ledger.finalized, false⟩ }
  | _, _ => none

def rename : Option LedgerWorld :=
  match w.writing with
  | some ⟨text, false⟩ => some { w with file := some text, writing := some ⟨text, true⟩ }
  | _ => none

/-- Without the rename a persist can only fail. -/
def written (ok : Bool) : Option LedgerWorld :=
  match w.writing with
  | none => none
  | some write => if ok && !write.renamed then none else some { w with writing := none, lastPersist := some ok }

def step : Event → Option LedgerWorld
  | .reserve key => some (w.reserve key)
  | .finalize key taskId duplicate => w.settle key fun createdAtMs =>
      persist { w with ledger := w.ledger.finalize runtime key ⟨createdAtMs, taskId, duplicate⟩ }
  | .release key => w.settle key fun _ => { w with ledger := w.ledger.delete key }
  | .clear key => w.clear key
  | .configure ttlMs maxEntries => some (w.configure runtime ttlMs maxEntries)
  | .tick now => some { w with now }
  | .snapshot => w.snapshot
  | .rename => w.rename
  | .written ok => w.written ok

/-- All operations have settled, and the last persist has succeeded. -/
structure Settled : Prop where
  reservations : ∀ key t promise, w.ledger.state.get key ≠ some (.pending t promise)
  waiting : w.waiting = 0
  writing : w.writing = none
  lastPersist : w.lastPersist ≠ some false

/-- What `reserveOrWait` answers. -/
def answer (ledger : IdempotencyLedger) (now : Timestamp) (key : String) : IdempotencyReservation :=
  (ledger.reserveOrWait now 0 key).1

/-- A new ledger on the same file. -/
def restart : IdempotencyLedger := (IdempotencyLedger.load runtime w.file w.ledger.ttlMs w.ledger.maxEntries w.now).2

end LedgerWorld

end Kookr.Core
