import Mathlib.Data.Rat.Defs
import YanetOperator.StrMap
import YanetOperator.Text

/-!
# Kubernetes objects

The objects the operator reads and writes, with the fields that its code reads or writes. A nil map and an empty map are one
value, as they are for the semantic comparison the operator uses; a nil pointer is `none`; a nil slice is kept apart from an
empty one only where the code tells them apart. A UID or a resource version is a number, and zero is the empty string of the
source. A point in time is a number.
-/

namespace YanetOperator

/-- A label selector given by exact labels matches a label set that has all of them. -/
def matchesLabels (selector labels : StrMap String) : Bool :=
  selector.toList.all (fun e => labels[e.1]? == some e.2)

/-- A resource quantity, as an exact number. -/
abbrev Quantity := Rat

/-- A list of quantities by resource name. -/
abbrev ResourceList := StrMap Quantity

/-! ## Metadata -/

structure OwnerReference where
  apiVersion : String
  kind : String
  name : String
  uid : Nat
  controller : Option Bool := none
  blockOwnerDeletion : Option Bool := none
  deriving DecidableEq

structure ObjectMeta where
  name : String := ""
  ns : String := ""
  uid : Nat := 0
  resourceVersion : Nat := 0
  generation : Nat := 0
  creationTimestamp : Nat := 0
  deletionTimestamp : Option Nat := none
  labels : StrMap String := ∅
  annotations : StrMap String := ∅
  ownerReferences : List OwnerReference := []
  finalizers : List String := []
  deriving DecidableEq

/-- `metav1.GetControllerOf`: the first owner reference that is marked as the controller. -/
def getControllerOf (m : ObjectMeta) : Option OwnerReference :=
  m.ownerReferences.find? (fun o => o.controller == some true)

/-! ## Pods -/

inductive IntOrString where
  | int (n : Int)
  | str (s : String)
  deriving DecidableEq

structure ContainerPort where
  name : String := ""
  containerPort : Int
  hostPort : Int := 0
  protocol : String := ""
  deriving DecidableEq

structure ResourceFieldSelector where
  containerName : String := ""
  resource : String := ""
  deriving DecidableEq

structure ConfigMapKeySelector where
  name : String
  key : String
  deriving DecidableEq

structure EnvVarSource where
  resourceFieldRef : Option ResourceFieldSelector := none
  configMapKeyRef : Option ConfigMapKeySelector := none
  deriving DecidableEq

structure EnvVar where
  name : String
  value : String := ""
  valueFrom : Option EnvVarSource := none
  deriving DecidableEq

structure EnvFromSource where
  configMapRef : Option String := none
  deriving DecidableEq

structure VolumeMount where
  name : String
  mountPath : String
  readOnly : Bool := false
  deriving DecidableEq

structure VolumeDevice where
  name : String
  devicePath : String
  deriving DecidableEq

/-- An HTTP or TCP action of a probe or of a lifecycle hook. -/
structure PortAction where
  port : IntOrString
  host : String := ""
  deriving DecidableEq

structure Probe where
  httpGet : Option PortAction := none
  tcpSocket : Option PortAction := none
  grpc : Option Int := none
  deriving DecidableEq

structure LifecycleHandler where
  httpGet : Option PortAction := none
  tcpSocket : Option PortAction := none
  deriving DecidableEq

structure Lifecycle where
  postStart : Option LifecycleHandler := none
  preStop : Option LifecycleHandler := none
  deriving DecidableEq

structure ResourceRequirements where
  requests : ResourceList := ∅
  limits : ResourceList := ∅
  deriving DecidableEq

structure Container where
  name : String
  image : String := ""
  imagePullPolicy : String := ""
  args : List String := []
  ports : List ContainerPort := []
  env : List EnvVar := []
  envFrom : List EnvFromSource := []
  volumeMounts : List VolumeMount := []
  volumeDevices : List VolumeDevice := []
  resources : ResourceRequirements := {}
  restartPolicy : Option String := none
  startupProbe : Option Probe := none
  readinessProbe : Option Probe := none
  livenessProbe : Option Probe := none
  lifecycle : Option Lifecycle := none
  privileged : Option Bool := none
  deriving DecidableEq

structure HostPathVolumeSource where
  path : String
  type : Option String := none
  deriving DecidableEq

structure DownwardAPIVolumeFile where
  path : String := ""
  resourceFieldRef : Option ResourceFieldSelector := none
  deriving DecidableEq

structure VolumeProjection where
  configMap : Option String := none
  downwardAPI : Option (List DownwardAPIVolumeFile) := none
  deriving DecidableEq

structure Volume where
  name : String
  hostPath : Option HostPathVolumeSource := none
  configMap : Option String := none
  projected : Option (List VolumeProjection) := none
  downwardAPI : Option (List DownwardAPIVolumeFile) := none
  deriving DecidableEq

structure Toleration where
  operator : String
  effect : String
  deriving DecidableEq

structure PodSpec where
  containers : List Container := []
  initContainers : List Container := []
  volumes : List Volume := []
  nodeName : String := ""
  nodeSelector : StrMap String := ∅
  hostNetwork : Bool := false
  hostIPC : Bool := false
  imagePullSecrets : List String := []
  tolerations : List Toleration := []
  deriving DecidableEq

/-- The regular containers of a Pod followed by its init containers: the order in which the operator visits them. -/
def PodSpec.allContainers (pod : PodSpec) : List Container := pod.containers ++ pod.initContainers

structure PodTemplateSpec where
  labels : StrMap String := ∅
  annotations : StrMap String := ∅
  spec : PodSpec := {}
  deriving DecidableEq

inductive PodPhase where
  | pending
  | running
  | succeeded
  | failed
  | unknown
  deriving DecidableEq

structure Pod where
  metadata : ObjectMeta := {}
  spec : PodSpec := {}
  phase : PodPhase := .pending
  deriving DecidableEq

/-! ## Workloads -/

structure LabelSelector where
  matchLabels : StrMap String := ∅
  deriving DecidableEq

structure RollingUpdate where
  maxUnavailable : Option IntOrString := none
  maxSurge : Option IntOrString := none
  deriving DecidableEq

structure DeploymentStrategy where
  type : String := ""
  rollingUpdate : Option RollingUpdate := none
  deriving DecidableEq

structure DeploymentSpec where
  replicas : Option Int := none
  selector : Option LabelSelector := none
  strategy : DeploymentStrategy := {}
  template : PodTemplateSpec := {}
  deriving DecidableEq

structure DeploymentStatus where
  observedGeneration : Nat := 0
  replicas : Int := 0
  updatedReplicas : Int := 0
  deriving DecidableEq

structure Deployment where
  metadata : ObjectMeta := {}
  spec : DeploymentSpec := {}
  status : DeploymentStatus := {}
  deriving DecidableEq

structure ReplicaSet where
  metadata : ObjectMeta := {}
  replicas : Option Int := none
  template : PodTemplateSpec := {}
  statusReplicas : Int := 0
  observedGeneration : Nat := 0
  deriving DecidableEq

/-! ## Configuration, routing and nodes -/

structure ConfigMap where
  metadata : ObjectMeta := {}
  data : StrMap String := ∅
  deriving DecidableEq

structure ServicePort where
  name : String
  port : Int
  protocol : String
  targetPort : IntOrString
  deriving DecidableEq

structure ServiceSpec where
  type : String := ""
  selector : StrMap String := ∅
  ports : List ServicePort := []
  sessionAffinity : String := ""
  internalTrafficPolicy : Option String := none
  clusterIP : String := ""
  clusterIPs : List String := []
  ipFamilies : List String := []
  ipFamilyPolicy : Option String := none
  deriving DecidableEq

structure Service where
  metadata : ObjectMeta := {}
  spec : ServiceSpec := {}
  deriving DecidableEq

structure Node where
  metadata : ObjectMeta := {}
  allocatable : ResourceList := ∅
  deriving DecidableEq

end YanetOperator
