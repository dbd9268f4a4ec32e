import Mathlib.Algebra.Order.Field.Rat
import Microservices.Chaos.Cluster

/-!
# The actions

The 23 actions of `MockCluster`, each as what it does up to its first `_wait`, between
one wait and the next, and after the last. `service` is a known one: with any other an
action returns at once.
-/

namespace Microservices.Chaos

open Register

/-- `x /= c`, in exact arithmetic. -/
abbrev dividedBy (c : ℚ) : Op ℚ := .times (1 / c)

inductive Action where
  | killPod (service : ServiceName)
  | cpuPressure (service : ServiceName)
  | networkPartition (service : ServiceName)
  | expireJwt
  | regionOutage
  | badDeploy (service : ServiceName)
  | redisFailure
  | dbFailure
  | slowNetwork
  | memoryLeak (service : ServiceName)
  | certExpiry
  | dnsFailure
  | cascadingFailure
  | diskFull (service : ServiceName)
  | gcPause (service : ServiceName)
  | thunderingHerd
  | noisyNeighbor
  | spotReclaim
  | autoscalerStuck
  | apiThrottle
  | secretLeak
  | serviceMeshCrash (service : ServiceName)
  | thirdPartyOutage
  deriving DecidableEq, Repr

/-- `for svc in self.services.values()`. -/
def forAll (f : ServiceName → List Effect) : List Effect := ServiceName.all.flatMap f

open Effect ServiceName

def killPod (v : ServiceName) : List (List Effect) := [
  [pick v .returned],
  [terminate v],
  [],
  [unready v, healthy v false, metric v .latency .save, metric v .errorRate .save,
    metric v .latency (.times 2.8), metric v .errorRate (.set 0.08), metric v .rps (.times 0.65)],
  [],
  [schedule v],
  [create v],
  [],
  [ready v, remove v],
  [metric v .latency .restore, metric v .errorRate .restore,
    metric v .rps (.times (1.0 / 0.65)), healthy v true]]

def cpuPressure (v : ServiceName) : List (List Effect) :=
  [[]]
    ++ List.replicate 6 [metric v .latency (.times 1.18), metric v .rps (.times 0.92)]
    ++ [[]]
    ++ List.replicate 2 [schedule v]
    ++ [[promote v]]
    ++ List.replicate 8 [metric v .latency (.ease 0.88 45)]

def networkPartition (v : ServiceName) : List (List Effect) := [
  [metric v .errorRate .save, metric v .latency .save, healthy v false,
    metric v .errorRate (.set 0.95), metric v .latency (.set 30000)],
  [],
  [],
  [metric v .errorRate .restore, metric v .latency .restore, healthy v true],
  []]

def expireJwt : List (List Effect) := [
  [metric apiGateway .errorRate .save, metric apiGateway .errorRate (.set 0.30),
    healthy apiGateway false],
  [],
  [],
  [metric apiGateway .errorRate .restore, healthy apiGateway true]]

def regionOutage : List (List Effect) := [
  forAll fun v => [cut v, healthy v false, metric v .rps (.times 0.55),
    metric v .latency (.times 1.5)],
  [],
  [],
  forAll fun v => [failOver v, healthy v true, metric v .rps (dividedBy 0.55),
    metric v .latency (dividedBy 1.5)]]

/-- It only publishes. -/
def badDeploy (_ : ServiceName) : List (List Effect) := [[], [], [], [], []]

def redisFailure : List (List Effect) := [
  [],
  forAll fun v => [metric v .latency .save, metric v .latency (.times 1.7),
    metric v .errorRate (.raise 0.005 0.05)],
  [],
  forAll fun v => [metric v .latency .restore, metric v .errorRate (.lower 0.005 0.001)],
  []]

def dbFailure : List (List Effect) := [
  [userService, taskService].flatMap fun v => [metric v .latency .save, metric v .errorRate .save,
    healthy v false, metric v .errorRate (.set 0.45), metric v .latency (.times 3.5)],
  [],
  [],
  [userService, taskService].flatMap fun v => [healthy v true, metric v .latency .restore,
    metric v .errorRate .restore],
  []]

def slowNetwork : List (List Effect) := [
  forAll fun v => [metric v .latency .save, metric v .latency (.plus 500)],
  [],
  [],
  forAll fun v => [metric v .errorRate (.raise 0.02 0.08)],
  forAll fun v => [metric v .latency .restore, metric v .errorRate (.lower 0.02 0.001)],
  []]

def memoryLeak (v : ServiceName) : List (List Effect) := [
  [pick v .returned],
  [metric v .latency .save, metric v .latency (.times 1.3)],
  [],
  [terminate v, unready v, healthy v false],
  [],
  [schedule v],
  [ready v, remove v, metric v .latency .restore, healthy v true]]

def certExpiry : List (List Effect) := [
  [],
  [healthy apiGateway false, metric apiGateway .errorRate .save,
    metric apiGateway .errorRate (.set 0.85)],
  [],
  [],
  [],
  [metric apiGateway .errorRate .restore, healthy apiGateway true]]

def dnsFailure : List (List Effect) := [
  [],
  forAll fun v => [metric v .errorRate (.raise 0.1 0.4)],
  [],
  forAll fun v => [metric v .errorRate (.lower 0.1 0.001)]]

def cascadingFailure : List (List Effect) := [
  [healthy userService false, metric userService .errorRate (.set 0.92),
    metric userService .latency (.times 4)],
  [metric taskService .errorRate (.set 0.35), metric taskService .latency (.times 2.2)],
  [metric apiGateway .errorRate (.set 0.15)],
  [healthy userService true, metric userService .errorRate (.set 0.001),
    metric userService .latency (dividedBy 4), metric taskService .errorRate (.set 0.001),
    metric taskService .latency (dividedBy 2.2), metric apiGateway .errorRate (.set 0.001)],
  []]

def diskFull (v : ServiceName) : List (List Effect) := [
  [pick v .returned],
  [metric v .errorRate .save, metric v .errorRate (.set 0.30)],
  [],
  [],
  [terminate v, unready v, healthy v false],
  [schedule v],
  [ready v, remove v, metric v .errorRate .restore, healthy v true]]

def gcPause (v : ServiceName) : List (List Effect) := [
  [metric v .latency .save, metric v .latency (.times 6)],
  [],
  [metric v .latency (.restoreTimes 1.3)],
  [metric v .latency .restore]]

def thunderingHerd : List (List Effect) := [
  [metric userService .errorRate .save, metric userService .errorRate (.set 0.5)],
  [metric userService .errorRate .restore],
  [metric userService .errorRate (.set 0.7), metric userService .latency (.times 4),
    metric apiGateway .latency (.times 2)],
  [],
  [metric userService .errorRate .restore, metric userService .latency (dividedBy 4),
    metric apiGateway .latency (dividedBy 2)]]

def noisyNeighbor : List (List Effect) := [
  [taskService, notificationService].flatMap fun v =>
    [metric v .latency .save, metric v .latency (.times 2.4)],
  [],
  [],
  [taskService, notificationService].map fun v => metric v .latency .restore,
  []]

def spotReclaim : List (List Effect) := [
  [],
  [],
  [pick apiGateway .raised, terminate apiGateway, unready apiGateway],
  [],
  [schedule apiGateway],
  [ready apiGateway, remove apiGateway]]

def autoscalerStuck : List (List Effect) := [
  [],
  [metric apiGateway .latency (.times 1.8), metric apiGateway .errorRate (.set 0.04)],
  [],
  [],
  [],
  [metric apiGateway .latency (dividedBy 1.8), metric apiGateway .errorRate (.set 0.001)],
  []]

/-- It only publishes. -/
def apiThrottle : List (List Effect) := [[], [], [], [], []]

def secretLeak : List (List Effect) := [
  [],
  [],
  [],
  [],
  [healthy userService false],
  [healthy userService true],
  [],
  []]

def serviceMeshCrash (v : ServiceName) : List (List Effect) := [
  [],
  [metric v .errorRate .save, metric v .errorRate (.set 0.20)],
  [],
  [],
  [metric v .errorRate .restore]]

def thirdPartyOutage : List (List Effect) := [
  [metric taskService .errorRate (.set 0.18)],
  [],
  [],
  [],
  [],
  [metric taskService .errorRate (.set 0.001)]]

/-- What the action does, wait by wait. -/
def Action.segments : Action → List (List Effect)
  | .killPod v => Chaos.killPod v
  | .cpuPressure v => Chaos.cpuPressure v
  | .networkPartition v => Chaos.networkPartition v
  | .expireJwt => Chaos.expireJwt
  | .regionOutage => Chaos.regionOutage
  | .badDeploy v => Chaos.badDeploy v
  | .redisFailure => Chaos.redisFailure
  | .dbFailure => Chaos.dbFailure
  | .slowNetwork => Chaos.slowNetwork
  | .memoryLeak v => Chaos.memoryLeak v
  | .certExpiry => Chaos.certExpiry
  | .dnsFailure => Chaos.dnsFailure
  | .cascadingFailure => Chaos.cascadingFailure
  | .diskFull v => Chaos.diskFull v
  | .gcPause v => Chaos.gcPause v
  | .thunderingHerd => Chaos.thunderingHerd
  | .noisyNeighbor => Chaos.noisyNeighbor
  | .spotReclaim => Chaos.spotReclaim
  | .autoscalerStuck => Chaos.autoscalerStuck
  | .apiThrottle => Chaos.apiThrottle
  | .secretLeak => Chaos.secretLeak
  | .serviceMeshCrash v => Chaos.serviceMeshCrash v
  | .thirdPartyOutage => Chaos.thirdPartyOutage

/-- All of it. -/
def Action.effects (a : Action) : List Effect := a.segments.flatten

/-- The cluster after the action has run alone. -/
def Action.perform (suffix : Nat → String) (a : Action) (c : Cluster) : Cluster :=
  (runEffects suffix a.effects {} c).2.2

end Microservices.Chaos
