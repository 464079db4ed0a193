import Urb.Native.Entry

/-!
# Offers

The offer loop of a framework (`__generate_offers`, `http_generate_offers`) offers the resources of
its slaves. A slave that was offered is not offerable until something makes it so again. If no slave
can be offered and no job is pending, an offer for a place-holder is made, which stands for an
executor runner that is yet to be submitted.

`OfferService` keeps the offers that were made and that no `LaunchTasks` message has answered; the
service has no such list. Nothing calls `rescind_offer`.
-/

namespace Urb

/-- `int(x)`, which rounds towards zero. -/
def toInt (x : ℚ) : Int := x.num.tdiv x.den

/-- An offer with the resources that it promises. -/
structure ResourceOffer extends Offer where
  resources : List Resource
  deriving DecidableEq

/-- A custom resource in an offer. -/
def CustomResource.resource (name : String) : CustomResource → Resource
  | .scalar value => { name, type := .scalar, scalar := some value }
  | .ranges list => { name, type := .ranges, ranges := some list }

/-- `__build_resources`, with the arguments that `__build_offer` passes. -/
def buildResources (slave : Slave) : List Resource :=
  [{ name := "cpus", type := .scalar, scalar := some (toInt slave.cpus) },
    { name := "mem", type := .scalar, scalar := some (toInt slave.mem) },
    { name := "disk", type := .scalar, scalar := some (toInt slave.disk) },
    { name := "ports", type := .ranges, ranges := some slave.ports }] ++
  (match slave.gpus with
  | some gpus =>
    if toInt gpus = 0 then []
    else [{ name := "gpus", type := .scalar, scalar := some (toInt gpus) }]
  | none => []) ++
  (slave.customResources.getD ∅).entries.map fun e => e.2.resource e.1

/-- The offer of `__build_offer` for an offer id of the `ResourceTracker`. The id of a
    place-holder is made unique. -/
def buildOffer (frameworkId : String) (offerId : Nat) (slaveId : String) (slave : Slave) :
    ResourceOffer where
  id := "offer-" ++ frameworkId ++ "-" ++ toString offerId
  slaveId := if isPlaceholder slaveId then slaveId ++ "-" ++ toString offerId else slaveId
  resources := buildResources slave

/-- `__build_offer` without `force`. There is no offer for a slave that has used up a resource
    exactly. -/
def buildOfferUnforced (frameworkId : String) (offerId : Nat) (slaveId : String) (slave : Slave) :
    Option ResourceOffer :=
  if slave.cpus = 0 ∨ slave.mem = 0 ∨ slave.disk = 0 then none
  else some (buildOffer frameworkId offerId slaveId slave)

/-! ## One pass of the offer loop -/

/-- The variables of `__generate_offers_for_framework`: the framework, `last_offer_id`, the offers
    built and `offerable_after_for_placeholder`. -/
structure OfferPass where
  framework : Framework
  lastOfferId : Nat
  offers : List ResourceOffer := []
  offerableAfter : ℚ := 0

/-- The offer is saved in the framework. -/
def OfferPass.save (p : OfferPass) (offer : ResourceOffer) : OfferPass :=
  { p with
    framework := { p.framework with
      offers := p.framework.offers.insert offer.id offer.toOffer }
    lastOfferId := p.lastOfferId + 1
    offers := p.offers ++ [offer] }

/-- A slave that may be offered. -/
def Slave.mayOffer (now : ℚ) (slave : Slave) : Bool :=
  slave.offerable && !slave.isCommandExecutor && decide (slave.offerableAfter < now)

/-- One iteration of the loop over the slaves. No offer is built for a slave that has nothing left
    of a resource. -/
def OfferPass.offerSlave (now : ℚ) (p : OfferPass) (e : Sigma fun _ : String => Slave) :
    OfferPass :=
  if e.2.mayOffer now then
    if e.2.cpus = 0 ∨ e.2.mem = 0 ∨ e.2.disk = 0 then p
    else
      let offer := buildOffer p.framework.id (p.lastOfferId + 1) e.1 e.2
      { p with
        framework := p.framework.modifySlave e.1
          ({ · with offer := some offer.toOffer, offerable := false }) }.save offer
  else if p.offerableAfter < e.2.offerableAfter then
    { p with offerableAfter := e.2.offerableAfter }
  else p

def OfferPass.offerSlaves (now : ℚ) (p : OfferPass) : OfferPass :=
  p.framework.slaves.entries.foldl (offerSlave now) p

/-- One offer for a place-holder. -/
def OfferPass.offerPlaceholder (p : OfferPass) : OfferPass :=
  let dummySlave := initializeSlaveResources p.framework.config
    { hostname := "place-holder", channel := "", cpus := 0, mem := 0, disk := 0 }
  p.save (buildOffer p.framework.id (p.lastOfferId + 1) "place-holder" dummySlave)

/-- A slave that is offerable again soon makes the place-holder offerable soon. -/
def OfferPass.advancePlaceholder (p : OfferPass) : OfferPass :=
  if p.offerableAfter ≠ 0 ∧ p.offerableAfter < p.framework.placeholderOfferableAfter then
    { p with framework := { p.framework with placeholderOfferableAfter := p.offerableAfter } }
  else p

/-- The part of `__generate_offers_for_framework` after the loop over the slaves. The number of
    place-holders is the `initial_tasks` of the configuration. -/
def OfferPass.offerPlaceholders (now : ℚ) (initialTasks : Nat) (p : OfferPass) : OfferPass :=
  let slavesCnt := p.framework.slaves.keys.length
  if p.offers = [] ∧ slavesCnt < p.framework.config.maxTasks then
    -- `pending_jobs <= 0`
    if p.framework.jobs.length ≤ slavesCnt then
      let p := p.advancePlaceholder
      if p.framework.placeholderOfferableAfter < now then
        (List.range initialTasks).foldl (fun p _ => p.offerPlaceholder) p
      else p
    else p
  else p

def generateOffersForFramework (now : ℚ) (initialTasks : Nat) (p : OfferPass) : OfferPass :=
  (p.offerSlaves now).offerPlaceholders now initialTasks

/-! ## The service and its offers -/

/-- An offer that was made. It is not sent if writing the message raises. -/
structure MadeOffer extends ResourceOffer where
  sent : Bool
  deriving DecidableEq

structure OfferService where
  state : State
  lastOfferId : Nat := 0
  unanswered : List MadeOffer := []

/-- What happens to the offers: the offer loop runs once, or another event. -/
inductive OfferEvent where
  | generate (initialTasks : Nat) (sent : Bool)
  | event (e : Event)

/-- The offers that an event answers. -/
def Event.answers : Event → List String
  | .queued (.launchTasks m) => m.offerIds
  | .http (.acceptLaunch offerIds _ _) => offerIds
  | .http (.decline offerIds _) => offerIds
  | _ => []

namespace OfferService

/-- One pass of the offer loop of a framework that is active. -/
def generate (o : OfferService) (initialTasks : Nat) (sent : Bool) : OfferService :=
  let p := generateOffersForFramework o.state.clock initialTasks
    { framework := { o.state.framework with nextOfferTime := 0 }, lastOfferId := o.lastOfferId }
  { state := { o.state with framework := p.framework }
    lastOfferId := p.lastOfferId
    unanswered := o.unanswered ++ p.offers.map fun offer => ⟨offer, sent⟩ }

def step (env : Env) (o : OfferService) : OfferEvent → OfferService
  | .generate initialTasks sent =>
    if o.state.tracking = .active then o.generate initialTasks sent else o
  | .event e =>
    { o with
      state := Urb.step env o.state e
      unanswered := o.unanswered.filter (·.id ∉ e.answers) }

/-- The offers for a slave that the framework has and has not answered. -/
def outstanding (o : OfferService) (slaveId : String) : List MadeOffer :=
  o.unanswered.filter fun offer => offer.sent && offer.slaveId == slaveId

end OfferService

end Urb
