import Mathlib.Logic.Function.Basic

/-!
# Election of the master service

Several services share a Redis. `MasterElector.elect` is a loop of each of them: it reads the
key of the master broker, writes the id of the service there if the key is not set, refreshes
the key if it holds the id of the service, and calls the role callbacks when that has changed.
Each Redis command is one step; what the loop does until the next command belongs to the step.

`URBService.shutdown_callback` calls `demoted_callback`, waits, and then refreshes the key with a
time to live of zero, which deletes it. The demotion stops servers and monitors that the service
creates when it is elected: in a service that was never elected it raises, and `shutdown_callback`
ends there.
-/

namespace Urb

/-- The Redis command that a service executes next. -/
inductive ElectorPc where
  /-- `GET` at the start of an iteration -/
  | get
  /-- `SET NX EX`, after `GET` found no key -/
  | set
  /-- `GET` again, after `SET NX` found one -/
  | getAgain
  /-- `EXPIRE` of the key that holds the id of the service -/
  | refresh
  deriving DecidableEq, Repr

/-- One service. `acting` says that its most recent role callback is
    `elected_master_callback`, `elected` that this callback was called before, and `closing` counts
    the calls of `shutdown_callback` that did not get to their `EXPIRE` yet. -/
structure Elector (ι : Type) where
  running : Bool := true
  masterBroker : Option ι := none
  wereMb : Bool := false
  pc : ElectorPc := .get
  acting : Bool := false
  elected : Bool := false
  closing : Nat := 0
  deriving DecidableEq

/-- The services and the key. -/
structure Cluster (ι : Type) where
  key : Option ι
  services : ι → Elector ι

variable {ι : Type} [DecidableEq ι]

namespace Elector

/-- `is_master_message_broker` -/
def isMasterMessageBroker (id : ι) (e : Elector ι) : Bool := e.masterBroker = some id

/-- `determine_master_message_broker` has returned: go on to the refresh, or call
    `demoted_callback` if the service was the master broker before. -/
def determined (id : ι) (masterBroker : Option ι) (e : Elector ι) : Elector ι :=
  let e := { e with masterBroker }
  if e.isMasterMessageBroker id then { e with pc := .refresh }
  else { e with pc := .get, acting := e.acting && !e.wereMb }

/-- One command of the loop of `elect`, with the key that it leaves. A command that raises
    changes nothing: an error of `determine_master_message_broker` ends the iteration, one of
    `refresh_master_message_broker` is only logged. -/
def elect (id : ι) (raises : Bool) (key : Option ι) (e : Elector ι) : Option ι × Elector ι :=
  match e.pc with
  | .get =>
    let e := { e with wereMb := e.isMasterMessageBroker id }
    if raises then (key, e)
    else
      match key with
      | some master => (key, e.determined id (some master))
      | none => (key, { e with pc := .set })
  | .set =>
    if raises then (key, { e with pc := .get })
    else
      match key with
      | some _ => (key, { e with pc := .getAgain })
      | none => (some id, e.determined id (some id))
  | .getAgain =>
    if raises then (key, { e with pc := .get })
    else (key, e.determined id key)
  | .refresh =>
    (key, { e with
      pc := .get
      acting := e.acting || !e.wereMb
      elected := e.elected || !e.wereMb })

end Elector

/-- What happens in a cluster: a service executes the next command of its loop, its
    `shutdown_callback` is called or gets to the `EXPIRE`, it ends, or the key times out. -/
inductive ElectionEvent (ι : Type) where
  | elect (id : ι) (raises : Bool)
  | shutdown (id : ι)
  | expire (id : ι)
  | stop (id : ι)
  | timeOut
  deriving DecidableEq

namespace Cluster

def update (c : Cluster ι) (id : ι) (e : Elector ι) : Cluster ι :=
  { c with services := Function.update c.services id e }

/-- A service that does not run does nothing, and the key times out only if the service whose id
    it stores does not run. -/
def step (c : Cluster ι) : ElectionEvent ι → Cluster ι
  | .elect id raises =>
    let e := c.services id
    if e.running then
      let r := e.elect id raises c.key
      { c.update id r.2 with key := r.1 }
    else c
  | .shutdown id =>
    let e := c.services id
    if e.running && e.elected then c.update id { e with acting := false, closing := e.closing + 1 }
    else c
  | .expire id =>
    let e := c.services id
    if e.running && 0 < e.closing then
      { c.update id { e with closing := e.closing - 1 } with key := none }
    else c
  | .stop id => c.update id { c.services id with running := false }
  | .timeOut =>
    match c.key with
    | none => c
    | some id => if (c.services id).running then c else { c with key := none }

end Cluster

end Urb
