import Centaeris.Relational.Pool

/-!
# Model attempts and their slots

A call of a model provider runs inside `model_attempt` or `async_model_attempt`. Before the call, the
attempt takes one of the slots of its quota domain: a session advisory lock of the database, on a
connection that is opened for this and closed at the end of the attempt. The slots are tried one after
another, and only while the domain is not cooling down; the cooldown is read again once a slot is held,
and if it has been raised in the meantime the slot is given back.

An attempt stops at every statement. The statements on its own connection are those that take a slot,
give it back and close; the domain and the clock are read through the connections of the application,
so nothing but these three notices that the connection of the attempt is lost.

Cancellation is different for the two kinds. The synchronous one looks at its event at the top of the
loop and after the second look at the clock. The asynchronous one is cancelled at its awaits; an
operation on its own connection runs in a thread that is waited for before the cancellation goes on.
-/

namespace Centaeris.Quota

/-- `model_attempt` and `async_model_attempt`. -/
inductive Kind
  | sync
  | async
  deriving DecidableEq

/-- A `ModelQuotaDomain`. -/
structure Domain where
  maxConcurrent : Nat
  enabled : Bool
  cooldownUntilMs : Int
  deriving DecidableEq

/-- The database: the domains, the session advisory locks with the attempts that hold them, the
connections that are open, and the clock. -/
structure Db (ι : Type) where
  domain : Nat → Option Domain
  locks : Nat × Nat → Option ι
  connected : ι → Bool
  now : Int

/-- Where an attempt is. -/
inductive Point
  | idle
  | opening (kind : Kind) (key : Nat) (cancelled : Bool)
  /-- At the top of the loop. -/
  | top (kind : Kind) (key : Nat)
  | domainRead (kind : Kind) (key limit : Nat) (cooldownUntil : Int)
  /-- In `_try_lock`. -/
  | locking (kind : Kind) (key limit candidate : Nat) (cancelled : Bool)
  | locked (kind : Kind) (key slot : Nat)
  | rechecked (kind : Kind) (key slot : Nat) (cooldownUntil : Int)
  /-- In `_unlock`. -/
  | givingBack (kind : Kind) (key slot : Nat) (cancelled : Bool)
  | sleeping (kind : Kind) (key : Nat)
  /-- The body of the attempt runs. -/
  | body (kind : Kind) (key slot : Nat)
  /-- In `_observe_error`, with the delay in milliseconds. -/
  | observing (kind : Kind) (key slot delayMs : Nat)
  | updating (kind : Kind) (key slot : Nat) (untilMs : Int)
  /-- In the `finally`. -/
  | closing (key : Nat) (slot : Option Nat)
  deriving DecidableEq

/-- What an attempt does next, or what happens to it. -/
inductive Event
  | start (kind : Kind) (key : Nat)
  | openFailed
  | opened
  | readDomain
  | readClock
  | tryLock
  | unlock
  | wake
  | finish
  /-- The body raises a `ModelProviderError`; `delayMs` is the delay that `_retry_after_delay` finds in
  it. -/
  | providerError (httpStatus : Option Nat) (delayMs : Option Nat)
  | update
  | close
  /-- The cancellation of an operation that is waited for, or of a synchronous attempt. -/
  | cancel
  /-- Any other exception, and a cancellation at any other await. -/
  | raise
  | loseConnection
  | tick (ms : Nat)
  | enable (key : Nat) (enabled : Bool)
  /-- `_observe_error` of an attempt that was cancelled meanwhile comes to its end. -/
  | lateUpdate (key : Nat) (untilMs : Int)
  deriving DecidableEq

/-- The slot that an attempt has taken and has not given back. -/
def Point.slot? : Point → Option (Nat × Nat)
  | .locked _ key slot | .rechecked _ key slot _ | .givingBack _ key slot _ | .body _ key slot
  | .observing _ key slot _ | .updating _ key slot _ => some (key, slot)
  | .closing key slot => slot.map (key, ·)
  | _ => none

section Statements

variable {ι : Type} [DecidableEq ι]

namespace Db

/-- The end of a connection: its session advisory locks are released. -/
def disconnect (db : Db ι) (i : ι) : Db ι :=
  { db with
    locks := fun name ↦ if db.locks name = some i then none else db.locks name
    connected := Function.update db.connected i false }

/-- `pg_try_advisory_lock`. A session that holds the lock gets it once more. -/
def tryLock (db : Db ι) (i : ι) (name : Nat × Nat) : Option (Db ι) :=
  if db.locks name = none ∨ db.locks name = some i then
    some { db with locks := Function.update db.locks name (some i) }
  else none

/-- `pg_advisory_unlock`. -/
def unlock (db : Db ι) (i : ι) (name : Nat × Nat) : Db ι :=
  if db.locks name = some i then { db with locks := Function.update db.locks name none } else db

/-- `update(cooldownUntilMs=Greatest("cooldownUntilMs", …))`. -/
def raiseCooldown (db : Db ι) (key : Nat) (untilMs : Int) : Db ι :=
  { db with domain := Function.update db.domain key ((db.domain key).map fun d ↦
      { d with cooldownUntilMs := max d.cooldownUntilMs untilMs }) }

/-- `_domain_state`; `none` is the `ModelProviderError`. -/
def domainState (db : Db ι) (key : Nat) : Option (Nat × Int) :=
  ((db.domain key).filter (·.enabled)).map fun d ↦ (d.maxConcurrent, d.cooldownUntilMs)

end Db

/-- The errors that `_observe_error` looks at. -/
def observed (httpStatus : Option Nat) : Bool :=
  httpStatus.any fun s ↦ s = 408 || s = 429 || 500 ≤ s

/-- One candidate of `_try_lock`. -/
def tryCandidate (i : ι) (db : Db ι) (kind : Kind) (key limit candidate : Nat) (cancelled : Bool) :
    Point × Db ι :=
  if db.connected i then
    if candidate ≤ limit then
      match db.tryLock i (key, candidate) with
      | some db =>
        (if cancelled then .closing key (some candidate) else .locked kind key candidate, db)
      | none => (.locking kind key limit (candidate + 1) cancelled, db)
    else (if cancelled then .closing key none else .sleeping kind key, db)
  else (.closing key none, db)

/-- `_unlock`. -/
def giveBack (i : ι) (db : Db ι) (kind : Kind) (key slot : Nat) (cancelled : Bool) : Point × Db ι :=
  if db.connected i then
    (if cancelled then .closing key none else .sleeping kind key, db.unlock i (key, slot))
  else (.closing key (some slot), db)

/-- An exception leaves the loop or the body. -/
def raised : Point → Option Point
  | .top _ key | .domainRead _ key _ _ | .sleeping _ key => some (.closing key none)
  | .locking _ key _ _ _ => some (.closing key none)
  | .locked _ key slot | .rechecked _ key slot _ | .givingBack _ key slot _ | .body _ key slot
  | .observing _ key slot _ | .updating _ key slot _ => some (.closing key (some slot))
  | _ => none

/-- What a cancellation does that is not an exception at once. -/
def cancelled : Point → Option Point
  | .opening .async key false => some (.opening .async key true)
  | .top .sync key => some (.closing key none)
  | .locking .async key limit candidate false => some (.locking .async key limit candidate true)
  | .rechecked .sync key slot _ => some (.givingBack .sync key slot false)
  | .givingBack .async key slot false => some (.givingBack .async key slot true)
  | _ => none

/-- What happens while no attempt is made. -/
def idleStep (db : Db ι) : Event → Option (Point × Db ι)
  | .start kind key => some (.opening kind key false, db)
  | .tick ms => some (.idle, { db with now := db.now + ms })
  | .enable key enabled =>
    some (.idle, { db with
      domain := Function.update db.domain key ((db.domain key).map fun d ↦ { d with enabled }) })
  | .lateUpdate key untilMs => some (.idle, db.raiseCooldown key untilMs)
  | _ => none

/-- The statements of an attempt. -/
def statement (i : ι) (db : Db ι) : Point → Event → Option (Point × Db ι)
  | .opening _ _ _, .openFailed => some (.idle, db)
  | .opening kind key cancelled, .opened =>
    some (if cancelled then .closing key none else .top kind key,
      { db with connected := Function.update db.connected i true })
  | .top kind key, .readDomain =>
    match db.domainState key with
    | none => some (.closing key none, db)
    | some (limit, cooldownUntil) => some (.domainRead kind key limit cooldownUntil, db)
  | .domainRead kind key limit cooldownUntil, .readClock =>
    some (if cooldownUntil ≤ db.now then .locking kind key limit 1 false else .sleeping kind key, db)
  | .locking kind key limit candidate cancelled, .tryLock =>
    some (tryCandidate i db kind key limit candidate cancelled)
  | .locked kind key slot, .readDomain =>
    match db.domainState key with
    | none => some (.closing key (some slot), db)
    | some (_, cooldownUntil) => some (.rechecked kind key slot cooldownUntil, db)
  | .rechecked kind key slot cooldownUntil, .readClock =>
    some (if cooldownUntil ≤ db.now then .body kind key slot else .givingBack kind key slot false, db)
  | .givingBack kind key slot cancelled, .unlock => some (giveBack i db kind key slot cancelled)
  | .sleeping kind key, .wake => some (.top kind key, db)
  | .body _ key slot, .finish => some (.closing key (some slot), db)
  | .body kind key slot, .providerError httpStatus delayMs =>
    match delayMs.filter fun _ ↦ observed httpStatus with
    | none => some (.closing key (some slot), db)
    | some delayMs => some (.observing kind key slot delayMs, db)
  | .observing kind key slot delayMs, .readClock =>
    some (.updating kind key slot (db.now + delayMs), db)
  | .updating _ key slot untilMs, .update =>
    some (.closing key (some slot), db.raiseCooldown key untilMs)
  | .closing _ _, .close => some (.idle, db.disconnect i)
  | _, _ => none

/-- **One step of an attempt.** -/
def act (i : ι) (point : Point) (db : Db ι) (event : Event) : Option (Point × Db ι) :=
  match point, event with
  | .idle, e => idleStep db e
  | point, .loseConnection => some (point, db.disconnect i)
  | point, .raise => (raised point).map (·, db)
  | point, .cancel => (cancelled point).map (·, db)
  | point, e => statement i db point e

end Statements

/-- The attempts over the database. -/
abbrev Attempts (ι : Type) := Pool ι Point (Db ι)

end Centaeris.Quota
