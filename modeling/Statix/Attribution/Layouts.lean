import Statix.Attribution.Quantity
import Statix.Attribution.Watcher

/-!
# Containers in every layout

Which labels a container's cgroup gets (`statix/src/attribution/mod.rs:420-527`): the pod is found by
the UUID in a component of the path (`pod_uid_from_path`), the container by the 64-hex id in the name
of the folder (`container_id_from_dir_name`), its name by that id in the three status lists, and its
reservation by that name in the spec (`pod_info_from`), as `resources_from` reads it.

* `PodFolder`, `ContainerFolder`: how the cgroup drivers and the container runtimes write the two
  folders, with any text in front.
* `LastNamed`, `LastBlock`: what the lists of a pod say. The last entry counts, in the order in which
  they are read.
* `podUid_of_layout`, `containerId_of_folder`: both searches find what stands there.

Results:

* **`container_attributed`**: the labels after `upsert_pod` and a merge.
* `reservation_unread`: a reservation in units `resources_from` does not read is 0 there.
-/

namespace Statix.Attribution

open Statix.Lib
open Statix.Rollup (Resources)

/-! ## Layouts -/

/-- A lower-case hexadecimal digit. -/
def isLowerHex (c : Char) : Bool := ('0' ≤ c && c ≤ '9') || ('a' ≤ c && c ≤ 'f')

/-- The places of the dashes. -/
def IsDash (i : Nat) : Prop := i = 8 ∨ i = 13 ∨ i = 18 ∨ i = 23

instance (i : Nat) : Decidable (IsDash i) := inferInstanceAs (Decidable (_ ∨ _ ∨ _ ∨ _))

/-- A UUID in lower case with dashes, as Kubernetes writes it. -/
structure CanonicalUuid (u : Text) : Prop where
  length : u.length = 36
  dashes : ∀ i c, u[i]? = some c → IsDash i → c = '-'
  digits : ∀ i c, u[i]? = some c → ¬ IsDash i → isLowerHex c = true

/-- A UUID as systemd writes it. -/
def underscored (u : Text) : Text := u.map fun c => if c = '-' then '_' else c

/-- `str::replace('_', "-")`. -/
def dashed (u : Text) : Text := u.map fun c => if c = '_' then '-' else c

/-- **The folder of a pod**: any text, `pod` and the UUID, and `.slice` under systemd. -/
def PodFolder (u name : Text) : Prop :=
  ∃ front written suffix, name = front ++ "pod".toList ++ written ++ suffix ∧
    (written = u ∨ written = underscored u) ∧ (suffix = [] ∨ suffix = ".slice".toList)

/-- The component holds no UUID of a pod other than `u`. -/
def NoOtherPod (u : Text) : Component → Prop
  | .normal (.utf8 text) =>
    ∀ w, "pod".toList ++ w <:+: text → isUuid w = true → dashed w = u
  | _ => True

/-- An id of a container. -/
structure ContainerId (id : Text) : Prop where
  length : id.length = 64
  hex : ∀ c ∈ id, isAsciiHexdigit c = true

/-- **The folder of a container**: the id, alone or after any text and a dash, and `.scope` under
systemd. -/
def ContainerFolder (id name : Text) : Prop :=
  ∃ front suffix, name = front ++ id ++ suffix ∧ (front = [] ∨ ∃ runtime, front = runtime ++ ['-']) ∧
    (suffix = [] ∨ suffix = ".scope".toList)

/-- CRI-O's monitor of a container. -/
def Monitor (name : Text) : Prop := "crio-conmon-".toList <+: name

/-- The path of a container's cgroup: below a folder of the pod, with no other pod before it. -/
def ContainerPath (u folder : Text) (path : PathBuf) : Prop :=
  ∃ earlier pod between, path =
      earlier ++ .normal (.utf8 pod) :: between ++ [.normal (.utf8 folder)] ∧
    (∀ x ∈ earlier, NoOtherPod u x) ∧ PodFolder u pod

/-! ## The lists of a pod -/

/-- The statuses of a pod in the order in which they are read. -/
def allStatuses : Option PodStatus → List ContainerStatus
  | none => []
  | some status => status.containerStatuses.getD [] ++ status.initContainerStatuses.getD [] ++
      status.ephemeralContainerStatuses.getD []

/-- The containers of a spec in the order in which they are read. -/
def allContainers : Option PodSpec → List Container
  | none => []
  | some spec => spec.containers ++ spec.initContainers.getD []

/-- The status is about the container: its id is `<runtime>://<id>`. -/
def ContainerStatus.Names (cs : ContainerStatus) (id : Text) : Prop :=
  ∃ runtime, cs.containerId = some (runtime ++ "://".toList ++ id) ∧ ¬ "://".toList <:+: runtime

/-- The last status about the container has this name. -/
def LastNamed (status : Option PodStatus) (id name : Text) : Prop :=
  ∃ before cs after, allStatuses status = before ++ cs :: after ∧ cs.Names id ∧ cs.name = name ∧
    ∀ x ∈ after, ¬ x.Names id

/-- The last container with the name has this `resources:` block. -/
def LastBlock (spec : Option PodSpec) (name : Text) (block : Option ResourceRequirements) : Prop :=
  ∃ before c after, allContainers spec = before ++ c :: after ∧ c.name = name ∧
    c.resources = block ∧ ∀ x ∈ after, x.name ≠ name

variable {u id folder name : Text} {path : PathBuf}

/-! ## The pod of a path -/

theorem isUuid_iff {s : Text} : isUuid s = true ↔ s.length = 36 ∧ ∀ i c, s[i]? = some c →
    (IsDash i → c = '_' ∨ c = '-') ∧ (¬ IsDash i → isAsciiHexdigit c = true) := by
  unfold isUuid IsDash
  rw [Bool.and_eq_true, decide_eq_true_eq, List.all_eq_true]
  refine and_congr_right fun _ => ⟨fun h i c hc => ?_, fun h x hx => ?_⟩
  · have hx := h (c, i) (List.mem_zipIdx_iff_getElem?.mpr hc)
    refine ⟨fun hd => ?_, fun hd => ?_⟩
    · simpa [hd] using hx
    · simpa [hd] using hx
  · obtain ⟨hdash, hhex⟩ := h x.2 x.1 (List.mem_zipIdx_iff_getElem?.mp hx)
    by_cases hd : x.2 = 8 ∨ x.2 = 13 ∨ x.2 = 18 ∨ x.2 = 23
    · simpa [hd] using hdash hd
    · simpa [hd] using hhex hd

theorem isAsciiHexdigit_of_lower {c : Char} (h : isLowerHex c = true) : isAsciiHexdigit c = true := by
  unfold isAsciiHexdigit
  rw [isLowerHex] at h
  rw [h, Bool.true_or]

/-- The characters of a UUID in the path. -/
theorem CanonicalUuid.mem (hu : CanonicalUuid u) {c : Char} (h : c ∈ u) :
    c = '-' ∨ isLowerHex c = true := by
  obtain ⟨i, hi⟩ := List.getElem?_of_mem h
  by_cases hd : IsDash i
  · exact Or.inl (hu.dashes i c hi hd)
  · exact Or.inr (hu.digits i c hi hd)

theorem CanonicalUuid.isUuid (hu : CanonicalUuid u) : isUuid u = true := by
  refine isUuid_iff.mpr ⟨hu.length, fun i c hc => ⟨fun hd => ?_, fun hd => ?_⟩⟩
  · exact Or.inr (hu.dashes i c hc hd)
  · exact isAsciiHexdigit_of_lower (hu.digits i c hc hd)

theorem CanonicalUuid.isUuid_underscored (hu : CanonicalUuid u) :
    Attribution.isUuid (underscored u) = true := by
  refine isUuid_iff.mpr ⟨by rw [underscored, List.length_map, hu.length], fun i c hc => ?_⟩
  rw [underscored, List.getElem?_map] at hc
  obtain ⟨b, hb, rfl⟩ := Option.map_eq_some_iff.mp hc
  refine ⟨fun hd => ?_, fun hd => ?_⟩
  · rw [hu.dashes i b hb hd]
    exact Or.inl rfl
  · have hlow := hu.digits i b hb hd
    have hne : b ≠ '-' := by
      rintro rfl
      cases hlow
    rw [if_neg hne]
    exact isAsciiHexdigit_of_lower hlow

theorem CanonicalUuid.dashed (hu : CanonicalUuid u) : Attribution.dashed u = u := by
  refine (List.map_congr_left fun c hc => ?_).trans (List.map_id u)
  refine if_neg ?_
  rintro rfl
  rcases hu.mem hc with h | h <;> cases h

theorem CanonicalUuid.dashed_underscored (hu : CanonicalUuid u) :
    Attribution.dashed (underscored u) = u := by
  rw [Attribution.dashed, underscored, List.map_map]
  refine (List.map_congr_left fun c hc => ?_).trans (List.map_id u)
  by_cases hd : c = '-'
  · rw [hd]
    rfl
  · have hne : c ≠ '_' := by
      rintro rfl
      rcases hu.mem hc with h | h <;> cases h
    simp [hd, hne]

/-- How a UUID is written in a pod folder does not matter. -/
theorem podFolder_written (hu : CanonicalUuid u) {written : Text}
    (h : written = u ∨ written = underscored u) :
    isUuid written = true ∧ dashed written = u ∧ 'p' ∉ written := by
  have hp : ∀ c ∈ u, c ≠ 'p' := by
    rintro c hc rfl
    rcases hu.mem hc with h | h <;> cases h
  rcases h with rfl | rfl
  · exact ⟨hu.isUuid, hu.dashed, fun h => hp _ h rfl⟩
  · refine ⟨hu.isUuid_underscored, hu.dashed_underscored, fun h => ?_⟩
    obtain ⟨c, hc, he⟩ := List.mem_map.mp h
    split at he
    · cases he
    · exact hp c hc he

/-- **The search finds the UUID of a pod folder**: after the last `pod`, for neither a UUID nor
`.slice` has a `p`. -/
theorem podUid_of_folder (hu : CanonicalUuid u) (h : PodFolder u name) :
    podUidFromComponent (.normal (.utf8 name)) = some u := by
  obtain ⟨front, written, suffix, rfl, hw, hs⟩ := h
  obtain ⟨huuid, hdash, hp⟩ := podFolder_written hu hw
  have hlast : 'p' ∉ ['o', 'd'] ++ (written ++ suffix) := by
    rw [List.mem_append, List.mem_append, not_or, not_or]
    refine ⟨by decide, hp, ?_⟩
    rcases hs with rfl | rfl <;> decide
  have hfind : rfind "pod".toList (front ++ "pod".toList ++ written ++ suffix) = some front.length := by
    rw [List.append_assoc]
    exact rfind_append hlast front
  have hrange : getRange (front ++ "pod".toList ++ written ++ suffix) (front.length + 3) 36 =
      some written := by
    have hstart : front.length + 3 = (front ++ "pod".toList).length := by
      rw [List.length_append]
      rfl
    have hlen : 36 = written.length := (isUuid_iff.mp huuid).1.symm
    rw [hstart, hlen]
    exact getRange_append _ _ _
  unfold podUidFromComponent
  simp only [OsName.toStr, Option.bind_eq_bind, Option.bind_some, hfind, hrange, huuid, if_true]
  exact congrArg some hdash

/-- What the search finds in a component is the UUID of a pod in it. -/
theorem podUid_in {x : Component} (hx : NoOtherPod u x) {v : Text}
    (h : podUidFromComponent x = some v) : v = u := by
  cases x with
  | normal part =>
    cases part with
    | other bytes => cases h
    | utf8 text =>
      unfold podUidFromComponent at h
      simp only [OsName.toStr, Option.bind_eq_bind, Option.bind_some] at h
      obtain ⟨start, hfind, h⟩ := Option.bind_eq_some_iff.mp h
      obtain ⟨w, hrange, h⟩ := Option.bind_eq_some_iff.mp h
      split at h
      · rename_i huuid
        obtain ⟨rest, hrest⟩ := rfind_found hfind
        have hw : w = rest.take 36 := by
          have hdrop : text.drop (start + 3) = rest := by
            rw [← List.drop_drop, ← hrest]
            rfl
          unfold getRange at hrange
          split at hrange
          · rw [← Option.some.inj hrange, hdrop]
          · cases hrange
        rw [← Option.some.inj h]
        refine hx w ?_ huuid
        have hpre : "pod".toList ++ w <+: text.drop start := by
          rw [hw, ← hrest, List.prefix_append_right_inj]
          exact List.take_prefix 36 rest
        exact hpre.isInfix.trans (List.drop_suffix start text).isInfix
      · cases h
  | _ => cases h

/-- **The pod of the path of a container.** -/
theorem podUid_of_layout (hu : CanonicalUuid u) (h : ContainerPath u folder path) :
    podUidFromPath path = some u := by
  obtain ⟨earlier, pod, between, rfl, hearlier, hpod⟩ := h
  unfold podUidFromPath
  rw [List.append_assoc, List.findSome?_append]
  cases hfind : earlier.findSome? podUidFromComponent with
  | none =>
    rw [Option.none_or, List.cons_append, List.findSome?_cons, podUid_of_folder hu hpod]
  | some v =>
    obtain ⟨x, hx, hv⟩ := List.exists_of_findSome?_eq_some hfind
    rw [Option.some_or, podUid_in (hearlier x hx) hv]

/-! ## The container of a folder -/

theorem ContainerId.notMem (hid : ContainerId id) {c : Char} (hc : isAsciiHexdigit c = false) :
    c ∉ id := by
  intro h
  have := hid.hex c h
  rw [hc] at this
  cases this

/-- **The search finds the id of a container folder**, which neither ends in `.scope` nor has a
dash. -/
theorem containerId_of_folder (hid : ContainerId id) (h : ContainerFolder id name) :
    containerIdFromDirName name = some id := by
  obtain ⟨front, suffix, rfl, hfront, hsuffix⟩ := h
  have hstrip : (stripSuffix ".scope".toList (front ++ id ++ suffix)).getD (front ++ id ++ suffix) =
      front ++ id := by
    rcases hsuffix with rfl | rfl
    · have hnone : stripSuffix ".scope".toList (front ++ id) = none :=
        stripSuffix_of_notMem ⟨'.', by decide, hid.notMem rfl⟩ (by rw [hid.length]; decide)
      rw [List.append_nil, hnone, Option.getD_none]
    · rw [stripSuffix_append, Option.getD_some]
  have hlast : rsplitNext '-' (front ++ id) = id := by
    rcases hfront with rfl | ⟨runtime, rfl⟩
    · exact rsplitNext_of_notMem (hid.notMem rfl)
    · rw [List.append_assoc, List.singleton_append]
      exact rsplitNext_append (hid.notMem rfl) runtime
  unfold containerIdFromDirName
  simp only [hstrip, hlast]
  refine if_pos ?_
  rw [hid.length, List.all_eq_true.mpr hid.hex]
  rfl

theorem dirName_of_layout (h : ContainerPath u folder path) : dirName path = some folder := by
  obtain ⟨earlier, pod, between, rfl, -⟩ := h
  unfold dirName fileName
  rw [List.getLast?_append]
  rfl

/-! ## The maps of a pod -/

section Maps

variable {α K V : Type} [DecidableEq K] (key : α → Option K) (value : α → V)

/-- One entry of a list into a map. -/
def insertEntry (m : Map K V) (x : α) : Map K V :=
  match key x with
  | none => m
  | some k => Function.update m k (some (value x))

/-- Entries of other keys. -/
theorem insert_other {k : K} : ∀ {l : List α} {m : Map K V}, (∀ x ∈ l, key x ≠ some k) →
    l.foldl (insertEntry key value) m k = m k
  | [], _, _ => rfl
  | x :: l, m, h => by
    rw [List.foldl_cons, insert_other fun y hy => h y (List.mem_cons_of_mem _ hy)]
    have hx := h x List.mem_cons_self
    unfold insertEntry
    cases hk : key x with
    | none => rfl
    | some k' =>
      refine Function.update_of_ne ?_ _ _
      rintro rfl
      exact hx hk

/-- **The last entry of a key counts.** -/
theorem insert_last {k : K} {before after : List α} {x : α} (m : Map K V) (hx : key x = some k)
    (h : ∀ y ∈ after, key y ≠ some k) :
    (before ++ x :: after).foldl (insertEntry key value) m k = some (value x) := by
  rw [List.foldl_append, List.foldl_cons, insert_other key value h]
  unfold insertEntry
  rw [hx]
  exact Function.update_self _ _ _

end Maps

theorem statusContainers_eq (status : Option PodStatus) : statusContainers status =
    (allStatuses status).foldl
      (insertEntry (fun cs => cs.containerId.bind (afterOnce "://".toList)) ContainerStatus.name)
      fun _ => none := by
  unfold statusContainers
  cases status with
  | none => rfl
  | some status =>
    have hlists : ([status.containerStatuses, status.initContainerStatuses,
        status.ephemeralContainerStatuses].filterMap id).flatten = allStatuses (some status) := by
      rcases status with ⟨_ | c, _ | i, _ | e⟩ <;> simp [allStatuses]
    simp only
    rw [hlists]
    congr 1
    funext containers cs
    simp only [insertEntry]
    cases cs.containerId.bind (afterOnce "://".toList) <;> rfl

theorem specResources_eq (spec : Option PodSpec) : specResources spec =
    (allContainers spec).foldl
      (insertEntry (fun c => some c.name) fun c => resourcesFrom c.resources) fun _ => none := by
  unfold specResources
  cases spec <;> rfl

theorem unbordered_scheme : Unbordered "://".toList := by
  intro n hpos hlt
  have hlt : n < 3 := hlt
  obtain rfl | rfl : n = 1 ∨ n = 2 := by omega
  · decide
  · decide

/-- `split_once("://")` on a container id. -/
theorem names_iff (cs : ContainerStatus) (id : Text) :
    cs.containerId.bind (afterOnce "://".toList) = some id ↔ cs.Names id := by
  unfold ContainerStatus.Names
  rw [Option.bind_eq_some_iff]
  constructor
  · rintro ⟨s, hs, hafter⟩
    obtain ⟨runtime, rfl, hfree⟩ :=
      (afterOnce_eq_some_iff_free (by decide) unbordered_scheme).mp hafter
    exact ⟨runtime, hs, hfree⟩
  · rintro ⟨runtime, hs, hfree⟩
    refine ⟨_, hs, ?_⟩
    exact (afterOnce_eq_some_iff_free (by decide) unbordered_scheme).mpr ⟨runtime, rfl, hfree⟩

theorem statusContainers_of_last {status : Option PodStatus} (h : LastNamed status id name) :
    statusContainers status id = some name := by
  obtain ⟨before, cs, after, hall, hnames, rfl, hafter⟩ := h
  rw [statusContainers_eq, hall]
  refine insert_last _ _ _ ((names_iff cs id).mpr hnames) fun x hx hid => ?_
  exact hafter x hx ((names_iff x id).mp hid)

theorem statusContainers_of_none {status : Option PodStatus}
    (h : ∀ cs ∈ allStatuses status, ¬ cs.Names id) : statusContainers status id = none := by
  rw [statusContainers_eq]
  exact insert_other _ _ fun cs hcs hid => h cs hcs ((names_iff cs id).mp hid)

theorem specResources_of_last {spec : Option PodSpec} {block : Option ResourceRequirements}
    (h : LastBlock spec name block) : specResources spec name = some (resourcesFrom block) := by
  obtain ⟨before, c, after, hall, rfl, rfl, hafter⟩ := h
  rw [specResources_eq, hall]
  exact insert_last _ _ _ rfl fun x hx hname => hafter x hx (Option.some.inj hname)

theorem specResources_of_none {spec : Option PodSpec}
    (h : ∀ c ∈ allContainers spec, c.name ≠ name) : specResources spec name = none := by
  rw [specResources_eq]
  exact insert_other _ _ fun c hc hname => h c hc (Option.some.inj hname)

/-! ## The labels of a container -/

/-- What `upsert_pod` keeps of the pod. -/
def keptOf (pod : Pod) : PodInfo where
  ns := pod.ns.getD "default".toList
  name := pod.name.getD []
  containers := statusContainers pod.status
  resources := specResources pod.spec

theorem podInfoFrom_of_uid {pod : Pod} (huid : pod.uid = some u) (hu : CanonicalUuid u) :
    podInfoFrom pod = some (u, keptOf pod) := by
  have hne : u ≠ [] := by
    rintro rfl
    cases hu.length
  unfold podInfoFrom
  rw [huid, Option.filter_some, if_pos (decide_eq_true hne)]
  rfl

/-- The labels a merge gives a cgroup of the pod. -/
theorem mergedLabels_of_layout {pods : Map Text PodInfo} {info : PodInfo} (hu : CanonicalUuid u)
    (hid : ContainerId id) (hpath : ContainerPath u folder path) (hfolder : ContainerFolder id folder)
    (hpod : pods u = some info) :
    mergedLabels pods path =
      let container := if "crio-conmon-".toList.isPrefixOf folder then none else info.containers id
      { ns := some info.ns
        pod := some info.name
        container := container
        podUid := some u
        k8sResolved := true
        resources := (container.bind info.resources).getD {} } := by
  have hknown : knownPod pods path = some info := by
    unfold knownPod
    rw [podUid_of_layout hu hpath, Option.bind_some, hpod]
  have hname : (dirName path).bind (fun name => containerNameInPod name info) =
      if "crio-conmon-".toList.isPrefixOf folder then none else info.containers id := by
    rw [dirName_of_layout hpath, Option.bind_some]
    unfold containerNameInPod
    rw [containerId_of_folder hid hfolder, Option.bind_some]
  unfold mergedLabels
  rw [hknown]
  unfold labelsInPod labelsFromCgroupPath
  simp only [hname, podUid_of_layout hu hpath]

/-- **Container attribution across layouts.** After `upsert_pod` of a pod and a merge, whatever
happens between its two sections, the cgroup of a container of the pod has the pod's namespace and
name. It has the name the status lists give the id, and the reservation `resources_from` reads in the
block the spec gives that name. It has no name, and reserves nothing, if the id is in no list or the
folder is that of a monitor. -/
theorem container_attributed (c c' : CacheState) (cg : Nat) (pod : Pod) {u id folder : Text}
    {path : PathBuf} (huid : pod.uid = some u) (hu : CanonicalUuid u) (hid : ContainerId id)
    (tracked : c.cgroupPaths cg = some path) (hpath : ContainerPath u folder path)
    (hfolder : ContainerFolder id folder) :
    let labels := (c'.mergeWrite (c.storePod pod).snapshot).labelsForCgroup cg
    labels.ns = some (pod.ns.getD "default".toList) ∧ labels.pod = some (pod.name.getD []) ∧
    (¬ Monitor folder → ∀ name, LastNamed pod.status id name → labels.container = some name ∧
      (∀ block, LastBlock pod.spec name block → labels.resources = resourcesFrom block) ∧
      ((∀ x ∈ allContainers pod.spec, x.name ≠ name) → labels.resources = ⟨0, 0, 0, 0⟩)) ∧
    (Monitor folder ∨ (∀ cs ∈ allStatuses pod.status, ¬ cs.Names id) →
      labels.container = none ∧ labels.resources = ⟨0, 0, 0, 0⟩) := by
  intro labels
  have hstore : (c.storePod pod).snapshot =
      ⟨c.cgroupPaths, Function.update c.podByUid u (some (keptOf pod))⟩ := by
    unfold CacheState.storePod
    rw [podInfoFrom_of_uid huid hu]
    rfl
  have hlabels : labels =
      mergedLabels (Function.update c.podByUid u (some (keptOf pod))) path := by
    show ((c'.mergeWrite (c.storePod pod).snapshot).cgroupLabels cg).getD {} = _
    rw [hstore]
    simp only [CacheState.mergeWrite, tracked, Option.getD_some]
  rw [hlabels, mergedLabels_of_layout hu hid hpath hfolder (Function.update_self _ _ _)]
  refine ⟨rfl, rfl, fun hmon name hname => ?_, fun hnone => ?_⟩
  · have hpre : "crio-conmon-".toList.isPrefixOf folder = false := by
      rw [Bool.eq_false_iff]
      exact fun h => hmon (List.isPrefixOf_iff_prefix.mp h)
    have hcontainer : (keptOf pod).containers id = some name := statusContainers_of_last hname
    simp only [hpre, Bool.false_eq_true, if_false, hcontainer, Option.bind_some, true_and]
    refine ⟨fun block hblock => ?_, fun hfree => ?_⟩
    · show (specResources pod.spec name).getD {} = _
      rw [specResources_of_last hblock, Option.getD_some]
    · show (specResources pod.spec name).getD {} = {}
      rw [specResources_of_none hfree, Option.getD_none]
  · have hcontainer : (if "crio-conmon-".toList.isPrefixOf folder then none
        else (keptOf pod).containers id) = none := by
      split
      · rfl
      · rename_i hpre
        rcases hnone with hmon | hfree
        · exact absurd (List.isPrefixOf_iff_prefix.mpr hmon) hpre
        · exact statusContainers_of_none hfree
    simp only [hcontainer, Option.bind_none, Option.getD_none, true_and]

/-- The UUID of a pod. -/
def webUid : Text := "2b7669e8-6828-4310-9a1f-0eaad6933466".toList

theorem canonical_webUid : CanonicalUuid webUid := by
  have hall : ∀ x ∈ webUid.zipIdx,
      (IsDash x.2 → x.1 = '-') ∧ (¬ IsDash x.2 → isLowerHex x.1 = true) := by decide +kernel
  refine ⟨rfl, fun i c hc => ?_, fun i c hc => ?_⟩
  · exact (hall (c, i) (List.mem_zipIdx_iff_getElem?.mpr hc)).1
  · exact (hall (c, i) (List.mem_zipIdx_iff_getElem?.mpr hc)).2

/-- A container id. -/
def webId : Text := List.replicate 64 'a'

theorem containerId_webId : ContainerId webId where
  length := rfl
  hex c hc := by
    rw [List.eq_of_mem_replicate hc]
    rfl

/-- A block that requests this much. -/
def requesting (cpu memory : Text) : ResourceRequirements where
  requests := some fun key =>
    if key = "cpu".toList then some cpu else if key = "memory".toList then some memory else none
  limits := none

/-- A pod with one container, `web`. -/
def webPod (block : ResourceRequirements) : Pod where
  uid := some webUid
  ns := some "shop".toList
  name := some "web-0".toList
  status := some ⟨some [⟨"web".toList, some ("containerd".toList ++ "://".toList ++ webId)⟩], none,
    none⟩
  spec := some ⟨[⟨"web".toList, some block⟩], none⟩

/-- Its container under systemd, run by containerd. -/
def webFolder : Text := "cri-containerd-".toList ++ webId ++ ".scope".toList

/-- The path of that container in a Guaranteed pod. -/
def webPath : PathBuf :=
  [.rootDir, .normal (.utf8 "kubepods.slice".toList),
    .normal (.utf8 ("kubepods-".toList ++ "pod".toList ++ underscored webUid ++ ".slice".toList)),
    .normal (.utf8 webFolder)]

theorem containerPath_web : ContainerPath webUid webFolder webPath := by
  have hshort : ∀ w : Text, "pod".toList ++ w <:+: "kubepods.slice".toList → ¬ isUuid w = true := by
    intro w hw huuid
    have hlen := hw.length_le
    have hw36 := (isUuid_iff.mp huuid).1
    rw [List.length_append, hw36] at hlen
    exact absurd hlen (by decide)
  refine ⟨[.rootDir, .normal (.utf8 "kubepods.slice".toList)], _, [], rfl, fun x hx => ?_,
    "kubepods-".toList, _, _, rfl, Or.inr rfl, Or.inr rfl⟩
  obtain rfl | rfl : x = .rootDir ∨ x = .normal (.utf8 "kubepods.slice".toList) := by
    simpa using hx
  · trivial
  · exact fun w hw huuid => absurd huuid (hshort w hw)

theorem containerFolder_web : ContainerFolder webId webFolder :=
  ⟨"cri-containerd-".toList, _, rfl, Or.inr ⟨"cri-containerd".toList, by decide⟩, Or.inr rfl⟩

theorem lastNamed_web (block : ResourceRequirements) :
    LastNamed (webPod block).status webId "web".toList := by
  have hruntime : ¬ "://".toList <:+: "containerd".toList := by
    intro h
    have hcolon : ':' ∈ "containerd".toList := h.subset (by decide)
    exact absurd hcolon (by decide)
  exact ⟨[], _, [], rfl, ⟨"containerd".toList, rfl, hruntime⟩, rfl,
    fun _ hx => absurd hx List.not_mem_nil⟩

theorem lastBlock_web (block : ResourceRequirements) :
    LastBlock (webPod block).spec "web".toList (some block) :=
  ⟨[], _, [], rfl, rfl, rfl, fun _ hx => absurd hx List.not_mem_nil⟩

/-- The container has its name and its reservation. -/
theorem container_attributed_web :
    let c := CacheState.empty.registerCgroupDirectory [.rootDir] 7 webPath
    let block := requesting "250m".toList "128Mi".toList
    let labels := (c.mergeWrite (c.storePod (webPod block)).snapshot).labelsForCgroup 7
    labels.ns = some "shop".toList ∧ labels.container = some "web".toList ∧
      labels.resources = ⟨250, 134217728, 0, 0⟩ := by
  intro c block labels
  have hmonitor : ¬ Monitor webFolder := by
    unfold Monitor
    decide
  obtain ⟨hns, -, hnamed, -⟩ := container_attributed c c 7 (webPod block) rfl canonical_webUid
    containerId_webId rfl containerPath_web containerFolder_web
  obtain ⟨hcontainer, hresources, -⟩ := hnamed hmonitor _ (lastNamed_web block)
  have hblock : resourcesFrom (some block) = ⟨250, 134217728, 0, 0⟩ := by decide +kernel
  exact ⟨hns, hcontainer, (hresources _ (lastBlock_web block)).trans hblock⟩

/-- **A reservation in other units is 0.** The container requests 1000 CPUs and 128974848 bytes, and
its cgroup reserves nothing. -/
theorem reservation_unread :
    let cpu := wholeAmount "1".toList (by decide) (by decide) .kilo
    let memory := wholeAmount "128974848000".toList (by decide) (by decide) .milli
    let c := CacheState.empty.registerCgroupDirectory [.rootDir] 7 webPath
    let block := requesting cpu.text memory.text
    let labels := (c.mergeWrite (c.storePod (webPod block)).snapshot).labelsForCgroup 7
    cpu.value = 1000 ∧ memory.value = 128974848 ∧
      ContainerPath webUid webFolder webPath ∧ ContainerFolder webId webFolder ∧
      LastNamed (webPod block).status webId "web".toList ∧
      LastBlock (webPod block).spec "web".toList (some block) ∧
      labels.container = some "web".toList ∧ labels.resources = ⟨0, 0, 0, 0⟩ := by
  intro cpu memory c block labels
  have hcpu : cpu.value = 1000 := by
    have hdigits : digitsValue "1".toList = 1 := by decide
    rw [value_wholeAmount, hdigits, Suffix.factor]
    norm_num
  have hmemory : memory.value = 128974848 := by
    have hdigits : digitsValue "128974848000".toList = 128974848000 := by decide
    rw [value_wholeAmount, hdigits, Suffix.factor]
    norm_num
  have hlabels : labels.container = some "web".toList ∧ labels.resources = ⟨0, 0, 0, 0⟩ := by
    decide +kernel
  exact ⟨hcpu, hmemory, containerPath_web, containerFolder_web, lastNamed_web block,
    lastBlock_web block, hlabels⟩

end Statix.Attribution
