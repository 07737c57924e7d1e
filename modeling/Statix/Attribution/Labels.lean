import Mathlib.Logic.Function.Basic
import Statix.Attribution.Resources

/-!
# Labels of a cgroup

Model of the pure part of `statix/src/attribution/mod.rs`: the labels read off a cgroup path
(`labels_from_cgroup_path`), what is kept of a pod of the Kubernetes API (`pod_info_from`), and the
labels a merge computes from both.

* A path is the list of its components, which is what `Path` compares, joins and strips. A component
  that is not UTF-8 has no text (`to_str` is `None`).
* Text is a list of characters where the source counts bytes. Every offset that is compared with a
  length is into a part of which all bytes are then checked to be ASCII, or right after an ASCII
  match.
* Hash maps are functions to `Option`; no result depends on their order.
-/

namespace Statix.Attribution

open Statix.Rollup (Resources)

/-! ## Paths -/

/-- A name in a path: UTF-8, or other bytes. -/
inductive OsName where
  | utf8 (name : Text)
  | other (bytes : List UInt8)
  deriving DecidableEq

/-- `to_str`. -/
def OsName.toStr : OsName → Option Text
  | .utf8 name => some name
  | .other _ => none

/-- `std::path::Component` on Unix. -/
inductive Component where
  | rootDir
  | curDir
  | parentDir
  | normal (name : OsName)
  deriving DecidableEq

/-- `PathBuf`. -/
abbrev PathBuf := List Component

/-- `Path::file_name`. -/
def fileName (path : PathBuf) : Option OsName :=
  match path.getLast? with
  | some (.normal name) => some name
  | _ => none

/-- `Path::join`: an absolute path replaces the base, and a leading `.` goes. -/
def joinPath (base rel : PathBuf) : PathBuf :=
  if rel.head? = some .rootDir ∨ base = [] then rel else base ++ rel.filter (· ≠ .curDir)

/-- `rel_path.strip_prefix("/").unwrap_or(rel_path)`. -/
def stripRoot : PathBuf → PathBuf
  | .rootDir :: rest => rest
  | path => path

/-- The file `name` of a cgroup. -/
def precompute (name : String) (cgroupRoot relPath : PathBuf) : PathBuf :=
  joinPath (joinPath cgroupRoot (stripRoot relPath)) [.normal (.utf8 name.toList)]

/-- `precompute_cpu_stat`. -/
def precomputeCpuStat : PathBuf → PathBuf → PathBuf := precompute "cpu.stat"

/-- `precompute_memory_current`. -/
def precomputeMemoryCurrent : PathBuf → PathBuf → PathBuf := precompute "memory.current"

/-- `precompute_memory_stat`. -/
def precomputeMemoryStat : PathBuf → PathBuf → PathBuf := precompute "memory.stat"

/-! ## Names in a path -/

/-- `char::is_ascii_hexdigit`. -/
def isAsciiHexdigit (c : Char) : Bool :=
  ('0' ≤ c && c ≤ '9') || ('a' ≤ c && c ≤ 'f') || ('A' ≤ c && c ≤ 'F')

/-- `str::rfind`. -/
def rfind (pat : Text) : Text → Option Nat
  | [] => if pat = [] then some 0 else none
  | c :: s =>
    match rfind pat s with
    | some i => some (i + 1)
    | none => if pat.isPrefixOf (c :: s) then some 0 else none

/-- `str::get(start..start + len)`. -/
def getRange (s : Text) (start len : Nat) : Option Text :=
  if start + len ≤ s.length then some ((s.drop start).take len) else none

/-- `rsplit(sep).next()`: what follows the last `sep`. -/
def rsplitNext (sep : Char) (s : Text) : Text := (s.reverse.takeWhile (· ≠ sep)).reverse

/-- `is_uuid`. -/
def isUuid (s : Text) : Bool :=
  s.length = 36 && s.zipIdx.all fun (b, i) =>
    if i = 8 ∨ i = 13 ∨ i = 18 ∨ i = 23 then b = '_' || b = '-' else isAsciiHexdigit b

/-- The closure of `pod_uid_from_path`. -/
def podUidFromComponent : Component → Option Text
  | .normal part => do
    let part ← part.toStr
    let start := (← rfind "pod".toList part) + 3
    let uid ← getRange part start 36
    if isUuid uid then some (uid.map fun c => if c = '_' then '-' else c) else none
  | _ => none

/-- `pod_uid_from_path`. -/
def podUidFromPath (path : PathBuf) : Option Text := path.findSome? podUidFromComponent

/-- `container_id_from_dir_name`. -/
def containerIdFromDirName (name : Text) : Option Text :=
  let name := (stripSuffix ".scope".toList name).getD name
  let id := rsplitNext '-' name
  if id.length = 64 && id.all isAsciiHexdigit then some id else none

/-! ## Labels -/

/-- `WorkloadLabels`, with its default. -/
structure WorkloadLabels where
  ns : Option Text := none
  pod : Option Text := none
  container : Option Text := none
  podUid : Option Text := none
  k8sResolved : Bool := false
  resources : Resources := {}
  deriving DecidableEq

/-- The text of the last component. -/
def dirName (path : PathBuf) : Option Text := (fileName path).bind OsName.toStr

/-- `labels_from_cgroup_path`. -/
def labelsFromCgroupPath : Option PathBuf → WorkloadLabels
  | none => {}
  | some path =>
    { container := ((dirName path).bind containerIdFromDirName).map (List.take 12)
      podUid := podUidFromPath path }

/-- `PodInfo`. -/
structure PodInfo where
  ns : Text
  name : Text
  containers : Map Text Text
  resources : Map Text Resources

/-- `container_name_in_pod`. -/
def containerNameInPod (dirName : Text) (pod : PodInfo) : Option Text :=
  if "crio-conmon-".toList.isPrefixOf dirName then none
  else (containerIdFromDirName dirName).bind pod.containers

/-- The labels of a cgroup at `path` inside `pod`. -/
def labelsInPod (path : PathBuf) (pod : PodInfo) : WorkloadLabels :=
  let container := (dirName path).bind fun name => containerNameInPod name pod
  { labelsFromCgroupPath (some path) with
    ns := some pod.ns
    pod := some pod.name
    k8sResolved := true
    container := container
    resources := (container.bind pod.resources).getD {} }

/-- The pod a path names, if it is known. -/
def knownPod (pods : Map Text PodInfo) (path : PathBuf) : Option PodInfo :=
  (podUidFromPath path).bind pods

/-- The labels `merge_cgroup_labels_from_k8s` computes for a cgroup at `path`. -/
def mergedLabels (pods : Map Text PodInfo) (path : PathBuf) : WorkloadLabels :=
  match knownPod pods path with
  | none => labelsFromCgroupPath (some path)
  | some pod => labelsInPod path pod

/-- **The labels of the path are those of the merge exactly if the path names no known pod.** -/
theorem mergedLabels_eq_iff (pods : Map Text PodInfo) (path : PathBuf) :
    labelsFromCgroupPath (some path) = mergedLabels pods path ↔ knownPod pods path = none := by
  unfold mergedLabels
  cases h : knownPod pods path with
  | none => simp
  | some pod =>
    constructor
    · intro e
      have := congrArg WorkloadLabels.k8sResolved e
      simp [labelsFromCgroupPath, labelsInPod] at this
    · rintro ⟨⟩

/-! ## Pods of the Kubernetes API -/

/-- `ContainerStatus`. -/
structure ContainerStatus where
  name : Text
  containerId : Option Text

/-- `PodStatus`. -/
structure PodStatus where
  containerStatuses : Option (List ContainerStatus)
  initContainerStatuses : Option (List ContainerStatus)
  ephemeralContainerStatuses : Option (List ContainerStatus)

/-- A container of a `PodSpec`. -/
structure Container where
  name : Text
  resources : Option ResourceRequirements

/-- `PodSpec`. -/
structure PodSpec where
  containers : List Container
  initContainers : Option (List Container)

/-- `Pod`, the fields that are read. -/
structure Pod where
  uid : Option Text
  ns : Option Text
  name : Option Text
  status : Option PodStatus
  spec : Option PodSpec

/-- `split_once(sep)`, what follows the separator. -/
def afterOnce (sep : Text) : Text → Option Text
  | [] => if sep = [] then some [] else none
  | c :: s => if sep.isPrefixOf (c :: s) then some ((c :: s).drop sep.length) else afterOnce sep s

/-- The container ids of the three status lists, with the names. -/
def statusContainers (status : Option PodStatus) : Map Text Text :=
  let lists := match status with
    | none => []
    | some status => [status.containerStatuses, status.initContainerStatuses,
        status.ephemeralContainerStatuses]
  (lists.filterMap id).flatten.foldl (fun containers cs =>
    match cs.containerId.bind (afterOnce "://".toList) with
    | none => containers
    | some id => Function.update containers id (some cs.name)) fun _ => none

/-- The resources of the containers and the init containers. -/
def specResources (spec : Option PodSpec) : Map Text Resources :=
  let all := match spec with
    | none => []
    | some spec => spec.containers ++ spec.initContainers.getD []
  all.foldl (fun resources c => Function.update resources c.name (some (resourcesFrom c.resources)))
    fun _ => none

/-- `pod_info_from`. -/
def podInfoFrom (pod : Pod) : Option (Text × PodInfo) :=
  match pod.uid.filter (· ≠ []) with
  | none => none
  | some uid => some (uid,
      { ns := pod.ns.getD "default".toList
        name := pod.name.getD []
        containers := statusContainers pod.status
        resources := specResources pod.spec })

end Statix.Attribution
