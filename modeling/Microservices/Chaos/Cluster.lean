import Mathlib.Data.Rat.Defs
import Microservices.Lib.Register

/-!
# The simulated cluster

`MockCluster` of the chaos controller: four services with their pods and their metrics,
in exact arithmetic. An action is a straight run of assignments between its `_wait`s.
`Effect` has those assignments, and `Effect.run` says what they do. What is only
published is left out, and so is how long a wait takes: at a wait others may run.

A pod is a Python object, so it has an identity beside its name: its place in the order
of creation. `suffix` is what `_rand_suffix()` has drawn for each of them.
-/

namespace Microservices.Chaos

open Register

/-- `SERVICE_NAMES`. -/
inductive ServiceName where
  | apiGateway | userService | taskService | notificationService
  deriving DecidableEq, Repr

namespace ServiceName

def value : ServiceName → String
  | apiGateway => "api-gateway"
  | userService => "user-service"
  | taskService => "task-service"
  | notificationService => "notification-service"

/-- `self.services.values()`, in the order of the dict. -/
def all : List ServiceName := [apiGateway, userService, taskService, notificationService]

theorem mem_all (v : ServiceName) : v ∈ all := by cases v <;> simp [all]

instance {P : ServiceName → Prop} [DecidablePred P] : Decidable (∀ v, P v) :=
  decidable_of_iff (∀ v ∈ all, P v) ⟨fun h v => h v v.mem_all, fun h v _ => h v⟩

end ServiceName

inductive Phase where
  | pending | containerCreating | running | terminating
  deriving DecidableEq, Repr

structure PodState where
  /-- Which object it is. -/
  id : Nat
  name : String
  phase : Phase := .running
  ready : Bool := true
  deriving DecidableEq, Repr

/-- Running and ready. -/
def PodState.Up (p : PodState) : Prop := p.phase = .running ∧ p.ready = true

instance (p : PodState) : Decidable p.Up := inferInstanceAs (Decidable (_ ∧ _))

/-- `p.phase = "Running"` and `p.ready = True`. -/
def PodState.start (p : PodState) : PodState := { p with phase := .running, ready := true }

/-- The list after `for p in svc.pods[-2:]`, each started. -/
def promoteLast (pods : List PodState) : List PodState :=
  pods.take (pods.length - 2) ++ (pods.drop (pods.length - 2)).map PodState.start

/-- The list after `for p in svc.pods[::2]`, each terminating and not ready. -/
def cutHalf (pods : List PodState) : List PodState :=
  pods.mapIdx fun n p => if n % 2 = 0 then { p with phase := .terminating, ready := false } else p

inductive Metric where
  | latency | errorRate | rps
  deriving DecidableEq, Repr

structure ServiceState where
  desiredReplicas : Nat := 3
  pods : List PodState := []
  healthy : Bool := true
  latencyMsP95 : ℚ := 45
  rps : ℚ := 80
  errorRate : ℚ := 0.001

namespace ServiceState

def metric (s : ServiceState) : Metric → ℚ
  | .latency => s.latencyMsP95
  | .errorRate => s.errorRate
  | .rps => s.rps

def setMetric (s : ServiceState) (m : Metric) (x : ℚ) : ServiceState :=
  match m with
  | .latency => { s with latencyMsP95 := x }
  | .errorRate => { s with errorRate := x }
  | .rps => { s with rps := x }

end ServiceState

structure Cluster where
  services : ServiceName → ServiceState
  /-- The names given to pods so far, a ghost. -/
  created : List String := []

/-- `f"{service}-{_rand_suffix()}"`. -/
def podName (v : ServiceName) (suffix : String) : String := v.value ++ "-" ++ suffix

namespace Cluster

def pods (c : Cluster) (v : ServiceName) : List PodState := (c.services v).pods

def desired (c : Cluster) (v : ServiceName) : Nat := (c.services v).desiredReplicas

def metric (c : Cluster) (v : ServiceName) (m : Metric) : ℚ := (c.services v).metric m

def healthy (c : Cluster) (v : ServiceName) : Bool := (c.services v).healthy

/-- Change one service. -/
def modify (c : Cluster) (v : ServiceName) (f : ServiceState → ServiceState) : Cluster :=
  { c with services := Function.update c.services v (f (c.services v)) }

def modifyPods (c : Cluster) (v : ServiceName) (f : List PodState → List PodState) : Cluster :=
  c.modify v fun s => { s with pods := f s.pods }

/-- Change one pod of a service, if it is there. -/
def modifyPod (c : Cluster) (v : ServiceName) (id : Option Nat) (f : PodState → PodState) :
    Cluster :=
  c.modifyPods v fun pods => pods.map fun p => if some p.id = id then f p else p

/-- `svc.pods.append(PodState(...))`. -/
def addPod (c : Cluster) (suffix : Nat → String) (v : ServiceName) (phase : Phase) (ready : Bool) :
    Cluster :=
  let name := podName v (suffix c.created.length)
  let c' := c.modifyPods v fun pods =>
    pods ++ [{ id := c.created.length, name := name, phase := phase, ready := ready }]
  { c' with created := c.created ++ [name] }

/-- `n` running pods. -/
def addPods (suffix : Nat → String) (v : ServiceName) : Nat → Cluster → Cluster
  | 0, c => c
  | n + 1, c => addPods suffix v n (c.addPod suffix v .running true)

/-- `_init_services`. -/
def start (suffix : Nat → String) : Cluster :=
  ServiceName.all.foldl (fun c v => addPods suffix v (c.desired v) c)
    { services := fun _ => {} }

end Cluster

/-- How an action may end before its last line. -/
inductive Stop where
  /-- `return`. -/
  | returned
  /-- `IndexError`. -/
  | raised
  deriving DecidableEq, Repr

/-- What an action does between two waits. `target` and `new_pod` are its local variables. -/
inductive Effect where
  /-- An assignment to a metric, or to the local variable its value is saved in. -/
  | metric (v : ServiceName) (m : Metric) (op : Op ℚ)
  | healthy (v : ServiceName) (b : Bool)
  /-- `target = svc.pods[0]`; without pods the action ends. -/
  | pick (v : ServiceName) (orElse : Stop)
  /-- `target.phase = "Terminating"`. -/
  | terminate (v : ServiceName)
  /-- `target.ready = False`. -/
  | unready (v : ServiceName)
  /-- `new_pod = PodState(..., phase="Pending", ready=False)` and `svc.pods.append(new_pod)`. -/
  | schedule (v : ServiceName)
  /-- `new_pod.phase = "ContainerCreating"`. -/
  | create (v : ServiceName)
  /-- `new_pod.phase = "Running"` and `new_pod.ready = True`. -/
  | ready (v : ServiceName)
  /-- `svc.pods = [p for p in svc.pods if p.name != target.name]`. -/
  | remove (v : ServiceName)
  /-- `for p in svc.pods[-2:]`: running and ready. -/
  | promote (v : ServiceName)
  /-- `for p in svc.pods[::2]`: terminating and not ready. -/
  | cut (v : ServiceName)
  /-- Without the terminating pods, and up to `desired_replicas` with new ones. -/
  | failOver (v : ServiceName)
  deriving DecidableEq, Repr

/-- The local variables of an action. -/
structure Locals where
  target : Option PodState := none
  /-- The pods it has made, the last one first; that one is `new_pod`. -/
  made : List Nat := []
  old : ServiceName → Metric → ℚ := fun _ _ => 0

namespace Effect

/-- The action ends here. -/
def stops (c : Cluster) : Effect → Option Stop
  | .pick v orElse => if c.pods v = [] then some orElse else none
  | _ => none

def run (suffix : Nat → String) (l : Locals) (c : Cluster) : Effect → Locals × Cluster
  | .metric v m op =>
      let out := op.run (l.old v m) (c.metric v m)
      ({ l with old := fun v' m' => if v' = v ∧ m' = m then out.1 else l.old v' m' },
        c.modify v fun s => s.setMetric m out.2)
  | .healthy v b => (l, c.modify v fun s => { s with healthy := b })
  | .pick v _ => ({ l with target := (c.pods v).head? }, c)
  | .terminate v =>
      (l, c.modifyPod v (l.target.map PodState.id) fun p => { p with phase := .terminating })
  | .unready v => (l, c.modifyPod v (l.target.map PodState.id) fun p => { p with ready := false })
  | .schedule v => ({ l with made := c.created.length :: l.made }, c.addPod suffix v .pending false)
  | .create v => (l, c.modifyPod v l.made.head? fun p => { p with phase := .containerCreating })
  | .ready v => (l, c.modifyPod v l.made.head? PodState.start)
  | .remove v =>
      (l, c.modifyPods v fun pods => pods.filter fun p => some p.name ≠ l.target.map PodState.name)
  | .promote v => (l, c.modifyPods v promoteLast)
  | .cut v => (l, c.modifyPods v cutHalf)
  | .failOver v =>
      let c' := c.modifyPods v fun pods => pods.filter fun p => p.phase ≠ .terminating
      (l, c'.addPods suffix v (c'.desired v - (c'.pods v).length))

end Effect

/-- Effects in turn, and whether the action has ended among them. -/
def runEffects (suffix : Nat → String) : List Effect → Locals → Cluster → Option Stop × Locals × Cluster
  | [], l, c => (none, l, c)
  | e :: es, l, c =>
      match e.stops c with
      | some stop => (some stop, l, c)
      | none => runEffects suffix es (e.run suffix l c).1 (e.run suffix l c).2

/-! ## What an assignment changes -/

namespace Cluster

variable (c : Cluster) (v v' : ServiceName)

/-- What `f` leaves alone in a service, a change by `f` leaves alone in each of them. -/
theorem read_modify {β : Type} (read : ServiceState → β) {f : ServiceState → ServiceState}
    (h : ∀ s, read (f s) = read s) : read ((c.modify v f).services v') = read (c.services v') := by
  show read (Function.update c.services v (f (c.services v)) v') = _
  by_cases hv : v' = v
  · subst hv
    rw [Function.update_self]
    exact h _
  · rw [Function.update_of_ne hv]

section Pods

variable (f : List PodState → List PodState)

@[simp] theorem created_modifyPods : (c.modifyPods v f).created = c.created := rfl

theorem pods_modifyPods :
    (c.modifyPods v f).pods v' = if v' = v then f (c.pods v') else c.pods v' := by
  unfold pods modifyPods modify
  by_cases h : v' = v
  · subst h
    simp
  · simp [h]

@[simp] theorem pods_modifyPods_self : (c.modifyPods v f).pods v = f (c.pods v) := by
  rw [pods_modifyPods, if_pos rfl]

@[simp] theorem desired_modifyPods : (c.modifyPods v f).desired v' = c.desired v' :=
  read_modify c v v' ServiceState.desiredReplicas fun _ => rfl

@[simp] theorem metric_modifyPods (m : Metric) :
    (c.modifyPods v f).metric v' m = c.metric v' m :=
  read_modify c v v' (fun s => s.metric m) fun _ => by cases m <;> rfl

@[simp] theorem healthy_modifyPods : (c.modifyPods v f).healthy v' = c.healthy v' :=
  read_modify c v v' ServiceState.healthy fun _ => rfl

end Pods

section Metrics

variable (m m' : Metric) (x : ℚ) (b : Bool)

theorem metric_setMetric : (c.modify v fun s => s.setMetric m x).metric v' m'
    = if v' = v ∧ m' = m then x else c.metric v' m' := by
  unfold metric modify
  by_cases h : v' = v
  · subst h
    cases m <;> cases m' <;> simp [ServiceState.setMetric, ServiceState.metric]
  · simp [h]

@[simp] theorem pods_setMetric : (c.modify v fun s => s.setMetric m x).pods v' = c.pods v' :=
  read_modify c v v' ServiceState.pods fun _ => by cases m <;> rfl

@[simp] theorem desired_setMetric :
    (c.modify v fun s => s.setMetric m x).desired v' = c.desired v' :=
  read_modify c v v' ServiceState.desiredReplicas fun _ => by cases m <;> rfl

@[simp] theorem healthy_setMetric :
    (c.modify v fun s => s.setMetric m x).healthy v' = c.healthy v' :=
  read_modify c v v' ServiceState.healthy fun _ => by cases m <;> rfl

theorem healthy_setHealthy : (c.modify v fun s => { s with healthy := b }).healthy v'
    = if v' = v then b else c.healthy v' := by
  unfold healthy modify
  by_cases h : v' = v
  · subst h
    simp
  · simp [h]

@[simp] theorem pods_setHealthy :
    (c.modify v fun s => { s with healthy := b }).pods v' = c.pods v' :=
  read_modify c v v' ServiceState.pods fun _ => rfl

@[simp] theorem desired_setHealthy :
    (c.modify v fun s => { s with healthy := b }).desired v' = c.desired v' :=
  read_modify c v v' ServiceState.desiredReplicas fun _ => rfl

@[simp] theorem metric_setHealthy :
    (c.modify v fun s => { s with healthy := b }).metric v' m = c.metric v' m :=
  read_modify c v v' (fun s => s.metric m) fun _ => by cases m <;> rfl

end Metrics

/-! ## New pods -/

section New

variable (suffix : Nat → String) (phase : Phase) (ready : Bool)

/-- The pod that comes next. -/
def nextPod : PodState :=
  { id := c.created.length, name := podName v (suffix c.created.length), phase := phase, ready := ready }

theorem pods_addPod : (c.addPod suffix v phase ready).pods v'
    = if v' = v then c.pods v' ++ [c.nextPod v suffix phase ready] else c.pods v' :=
  pods_modifyPods c v v' fun pods => pods ++ [c.nextPod v suffix phase ready]

@[simp] theorem created_addPod :
    (c.addPod suffix v phase ready).created = c.created ++ [podName v (suffix c.created.length)] := rfl

@[simp] theorem desired_addPod : (c.addPod suffix v phase ready).desired v' = c.desired v' :=
  desired_modifyPods c v v' fun pods => pods ++ [c.nextPod v suffix phase ready]

@[simp] theorem metric_addPod (m : Metric) :
    (c.addPod suffix v phase ready).metric v' m = c.metric v' m :=
  metric_modifyPods c v v' (fun pods => pods ++ [c.nextPod v suffix phase ready]) m

@[simp] theorem healthy_addPod : (c.addPod suffix v phase ready).healthy v' = c.healthy v' :=
  healthy_modifyPods c v v' fun pods => pods ++ [c.nextPod v suffix phase ready]

/-- What holds of the cluster and of each with one more pod holds with any number. -/
theorem addPods_induction {P : Cluster → Prop}
    (h : ∀ c, P c → P (c.addPod suffix v .running true)) (n : Nat) (hc : P c) :
    P (addPods suffix v n c) := by
  induction n generalizing c with
  | zero => exact hc
  | succ n ih => exact ih _ (h c hc)

theorem length_addPods (n : Nat) :
    ((addPods suffix v n c).pods v).length = (c.pods v).length + n := by
  induction n generalizing c with
  | zero => rfl
  | succ n ih =>
      rw [addPods, ih, pods_addPod, if_pos rfl, List.length_append, List.length_singleton]
      omega

end New

end Cluster

end Microservices.Chaos
