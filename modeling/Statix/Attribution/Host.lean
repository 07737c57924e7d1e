import Statix.Attribution.Cache

/-!
# Cgroup ids and cgroup paths on a live host

The kernel puts the cgroup id of an exec into the event; the agent reads the path later, from
`/proc/<pid>/cgroup` of the same pid (`on_identity_event`, `cgroup_path_from_pid`,
`statix/src/attribution/mod.rs`). Model of the host around the cache: directories are made and
removed, processes start, move, exec and end, pids come back, and all of it runs between the
sections of the cache's operations, with the walk of `bootstrap_existing_cgroups` and the eviction.

* `Host` has one id a directory and one directory a path, and every process is in a directory.
* `cgroupPathFromPid` is the code's reader, with its buffer of 1024 bytes, on the text the kernel
  writes.
* A node holds a pair of id and path in the cache, in an identity event that has read, or in the
  bootstrap list (`Node.Holds`).
* `Clean`: a step reads the path of the directory the id belongs to, and no directory is made at a
  path that is held.

Results:

* `pairs_step`: what a clean step keeps, of all pairs held at once.
* **`sampled_once`**: in every clean run no two ids have one path, and no two sample targets lie in
  one directory.
* `moved_process`, `path_reused`: each of the two conditions is needed.
-/

namespace Statix.Attribution

/-! ## Reading `/proc/<pid>/cgroup` -/

/-- `parse_cgroup_v2_path_line`. -/
def parseCgroupV2PathLine (line : Text) : Option Text :=
  let line := trim line
  if line = [] then none
  else
    match (afterOnce "::".toList line).filter fun path => path.head? == some '/' with
    | some path => some path
    | none =>
      let path := rsplitNext ':' line
      if path.head? = some '/' then some path else none

/-- `PathBuf::from` of an absolute path. -/
def pathFromText (s : Text) : PathBuf :=
  .rootDir :: ((s.splitOn '/').filter fun name => name ≠ [] ∧ name ≠ ['.']).map fun name =>
    if name = ['.', '.'] then .parentDir else .normal (.utf8 name)

/-- One `read` into a buffer of `n` bytes and `from_utf8` of it. -/
def readText : Nat → Text → Option Text
  | _, [] => some []
  | 0, _ => some []
  | n, c :: rest =>
    if c.utf8Size ≤ n then (readText (n - c.utf8Size) rest).map (c :: ·) else none

/-- `cgroup_path_from_pid`, of what is in the file. -/
def cgroupPathFromPid (contents : Text) : Option PathBuf :=
  match readText 1024 contents with
  | none => none
  | some [] => none
  | some text => ((text.splitOn '\n').findSome? parseCgroupV2PathLine).map pathFromText

/-! ## The host -/

/-- The names of a path in the hierarchy. -/
def CgroupPath (p : PathBuf) : Prop := ∃ names : List OsName, p = .rootDir :: names.map .normal

/-- The cgroup v2 hierarchy and the processes in it. -/
structure Host where
  dirs : Map PathBuf Nat
  procs : Map Nat Nat
  paths : ∀ p id, dirs p = some id → CgroupPath p
  distinct : ∀ p q id, dirs p = some id → dirs q = some id → p = q
  placed : ∀ pid c, procs pid = some c → ∃ p, dirs p = some c

/-- The text of a name. -/
def Component.toStr : Component → Option Text
  | .normal name => name.toStr
  | _ => none

/-- What the kernel writes for a process in `p`; `none` when a name is not UTF-8. -/
def procCgroup (p : PathBuf) : Option Text :=
  ((p.drop 1).mapM Component.toStr).map fun names =>
    "0::/".toList ++ ['/'].intercalate names ++ ['\n']

namespace Host

variable (h : Host)

/-- A directory is made. -/
def mkdir (p : PathBuf) (id : Nat) (path : CgroupPath p) (free : h.dirs p = none)
    (fresh : ∀ q, h.dirs q ≠ some id) : Host where
  dirs := Function.update h.dirs p (some id)
  procs := h.procs
  paths q j hq := by
    by_cases e : q = p
    · rw [e]
      exact path
    · rw [Function.update_of_ne e] at hq
      exact h.paths q j hq
  distinct q r j hq hr := by
    by_cases eq : q = p <;> by_cases er : r = p
    · rw [eq, er]
    · subst eq
      rw [Function.update_self] at hq
      rw [Function.update_of_ne er, ← hq] at hr
      exact absurd hr (fresh r)
    · subst er
      rw [Function.update_self] at hr
      rw [Function.update_of_ne eq, ← hr] at hq
      exact absurd hq (fresh q)
    · rw [Function.update_of_ne eq] at hq
      rw [Function.update_of_ne er] at hr
      exact h.distinct q r j hq hr
  placed pid c hc := by
    obtain ⟨q, hq⟩ := h.placed pid c hc
    have hne : q ≠ p := by
      rintro rfl
      rw [free] at hq
      cases hq
    exact ⟨q, (Function.update_of_ne hne _ _).trans hq⟩

/-- An empty directory is removed. -/
def rmdir (p : PathBuf) (id : Nat) (made : h.dirs p = some id)
    (empty : ∀ pid, h.procs pid ≠ some id) : Host where
  dirs := Function.update h.dirs p none
  procs := h.procs
  paths q j hq := by
    by_cases e : q = p
    · rw [e, Function.update_self] at hq
      cases hq
    · rw [Function.update_of_ne e] at hq
      exact h.paths q j hq
  distinct q r j hq hr := by
    by_cases eq : q = p
    · rw [eq, Function.update_self] at hq
      cases hq
    · by_cases er : r = p
      · rw [er, Function.update_self] at hr
        cases hr
      · rw [Function.update_of_ne eq] at hq
        rw [Function.update_of_ne er] at hr
        exact h.distinct q r j hq hr
  placed pid c hc := by
    obtain ⟨q, hq⟩ := h.placed pid c hc
    have hne : q ≠ p := by
      rintro rfl
      rw [made] at hq
      exact empty pid (hc.trans hq.symm)
    exact ⟨q, (Function.update_of_ne hne _ _).trans hq⟩

/-- A process is put into a directory: it starts there, or moves. -/
def place (pid c : Nat) (live : ∃ p, h.dirs p = some c) : Host where
  dirs := h.dirs
  procs := Function.update h.procs pid (some c)
  paths := h.paths
  distinct := h.distinct
  placed q d hd := by
    by_cases e : q = pid
    · rw [e, Function.update_self] at hd
      obtain rfl := Option.some.inj hd
      exact live
    · rw [Function.update_of_ne e] at hd
      exact h.placed q d hd

/-- A process ends. -/
def exit (pid : Nat) : Host where
  dirs := h.dirs
  procs := Function.update h.procs pid none
  paths := h.paths
  distinct := h.distinct
  placed q d hd := by
    by_cases e : q = pid
    · rw [e, Function.update_self] at hd
      cases hd
    · rw [Function.update_of_ne e] at hd
      exact h.placed q d hd

end Host

/-! ## The node -/

/-- The host with the agent on it: exec events in the ring buffer as `(cgroup_id, pid)`, identity
events between their check and their read, the cache with the operations in flight, and what
`bootstrap_existing_cgroups` has found and not registered yet. -/
structure Node where
  host : Host
  ring : List (Nat × Nat)
  reading : List (Nat × Nat)
  cache : CacheState
  inFlight : List InFlight
  discovered : List (Nat × PathBuf)

/-- Before the agent starts. -/
def Node.start (host : Host) : Node := ⟨host, [], [], .empty, [], []⟩

/-- What `cgroup_path_from_pid` can return: the path in the file of a process, or an error. -/
def Host.ReadsPath (h : Host) (pid : Nat) (relPath : Option PathBuf) : Prop :=
  relPath = none ∨ ∃ c p text, h.procs pid = some c ∧ h.dirs p = some c ∧
    procCgroup p = some text ∧ relPath = cgroupPathFromPid text

/-- What a step is about. -/
inductive NodeEvent where
  | read (c : Nat) (relPath : Option PathBuf)
  | mkdir (p : PathBuf)
  | other

/-- One step of the host, or one section of one operation of the agent. -/
inductive NodeStep (root : PathBuf) : NodeEvent → Node → Node → Prop
  -- the host
  | mkdir {x : Node} (p : PathBuf) (id : Nat) (path : CgroupPath p) (free : x.host.dirs p = none)
      (fresh : ∀ q, x.host.dirs q ≠ some id) :
      NodeStep root (.mkdir p) x { x with host := x.host.mkdir p id path free fresh }
  | rmdir {x : Node} (p : PathBuf) (id : Nat) (made : x.host.dirs p = some id)
      (empty : ∀ pid, x.host.procs pid ≠ some id) :
      NodeStep root .other x { x with host := x.host.rmdir p id made empty }
  | spawn {x : Node} (pid c : Nat) (free : x.host.procs pid = none)
      (live : ∃ p, x.host.dirs p = some c) :
      NodeStep root .other x { x with host := x.host.place pid c live }
  | move {x : Node} (pid c c' : Nat) (h : x.host.procs pid = some c)
      (live : ∃ p, x.host.dirs p = some c') :
      NodeStep root .other x { x with host := x.host.place pid c' live }
  | exit {x : Node} (pid : Nat) : NodeStep root .other x { x with host := x.host.exit pid }
  | exec {x : Node} {c : Nat} (pid : Nat) (h : x.host.procs pid = some c) :
      NodeStep root .other x { x with ring := x.ring ++ [(c, pid)] }
  -- `on_identity_event`
  | identityKnown {x : Node} {c pid : Nat} {rest : List (Nat × Nat)} (h : x.ring = (c, pid) :: rest)
      (known : x.cache.tracks c = true) : NodeStep root .other x { x with ring := rest }
  | identityCheck {x : Node} {c pid : Nat} {rest : List (Nat × Nat)} (h : x.ring = (c, pid) :: rest)
      (untracked : x.cache.tracks c = false) :
      NodeStep root .other x { x with ring := rest, reading := x.reading ++ [(c, pid)] }
  | identityRead {x : Node} {c pid : Nat} {before after : List (Nat × Nat)}
      (h : x.reading = before ++ (c, pid) :: after) (relPath : Option PathBuf)
      (hr : x.host.ReadsPath pid relPath) :
      NodeStep root (.read c relPath) x { x with
        reading := before ++ after
        inFlight := x.inFlight ++ [.identity c relPath] }
  -- `bootstrap_existing_cgroups`
  | bootstrapWalk {x : Node} {p : PathBuf} {id : Nat} (h : x.host.dirs p = some id)
      (notRoot : p ≠ [.rootDir]) (nonzero : id ≠ 0) :
      NodeStep root .other x { x with discovered := x.discovered ++ [(id, p)] }
  | registerCgroupDirectory {x : Node} {id : Nat} {p : PathBuf} {rest : List (Nat × PathBuf)}
      (h : x.discovered = (id, p) :: rest) :
      NodeStep root .other x { x with
        discovered := rest
        cache := x.cache.registerCgroupDirectory root id p }
  -- `evict_stale_cgroups` and the label merges
  | evictScan {x : Node} (exist : PathBuf → Bool)
      (files : ∀ path, exist path = true →
        ∃ p id, x.host.dirs p = some id ∧ path = precomputeMemoryCurrent root p) :
      NodeStep root .other x
        { x with inFlight := x.inFlight ++ [.evict (x.cache.staleIds exist)] }
  | mergeSnapshot {x : Node} :
      NodeStep root .other x { x with inFlight := x.inFlight ++ [.merge x.cache.snapshot] }
  | write {x : Node} {op : InFlight} {before after : List InFlight}
      (h : x.inFlight = before ++ op :: after) :
      NodeStep root .other x { x with cache := op.write root x.cache, inFlight := before ++ after }

/-! ## Pairs of id and path -/

/-- The agent has read this path for this id. -/
def Node.Holds (x : Node) (id : Nat) (p : PathBuf) : Prop :=
  x.cache.cgroupPaths id = some p ∨ .identity id (some p) ∈ x.inFlight ∨ (id, p) ∈ x.discovered

/-- **The condition on a step**: an identity event reads the path of the directory that has its
cgroup id, and no directory is made at a path the agent holds. -/
def Clean (x : Node) : NodeEvent → Prop
  | .read c relPath => ∀ p, relPath = some p → x.host.dirs p = some c
  | .mkdir p => ∀ id, ¬x.Holds id p
  | .other => True

/-- A step that `allowed` admits. -/
def AllowedStep (root : PathBuf) (allowed : Node → NodeEvent → Prop) (x x' : Node) : Prop :=
  ∃ e, NodeStep root e x x' ∧ allowed x e

variable {root : PathBuf} {x x' : Node} {c : CacheState}

/-- **What a clean run keeps** of the pairs the agent holds: a path has one id, that of its
directory while there is one. -/
structure Pairs (x : Node) : Prop where
  one : ∀ {id id' p}, x.Holds id p → x.Holds id' p → id = id'
  live : ∀ {id id' p}, x.Holds id p → x.host.dirs p = some id' → id = id'
  path : ∀ {id p}, x.Holds id p → CgroupPath p

/-- A step that reads pairs off the directories. -/
theorem Pairs.learn (h : Pairs x) (hdirs : x'.host.dirs = x.host.dirs)
    (hholds : ∀ id p, x'.Holds id p → x.Holds id p ∨ x.host.dirs p = some id) : Pairs x' := by
  refine ⟨fun {id id' p} h₁ h₂ => ?_, fun {id id' p} h₁ h₂ => ?_, fun {id p} h₁ => ?_⟩
  · rcases hholds id p h₁ with h₁ | h₁ <;> rcases hholds id' p h₂ with h₂ | h₂
    · exact h.one h₁ h₂
    · exact h.live h₁ h₂
    · exact (h.live h₂ h₁).symm
    · exact Option.some.inj (h₁.symm.trans h₂)
  · rw [hdirs] at h₂
    rcases hholds id p h₁ with h₁ | h₁
    · exact h.live h₁ h₂
    · exact Option.some.inj (h₁.symm.trans h₂)
  · rcases hholds id p h₁ with h₁ | h₁
    · exact h.path h₁
    · exact x.host.paths p id h₁

/-- A directory is made at a path the agent does not hold. -/
theorem Pairs.mkdir (h : Pairs x) {p : PathBuf} {id : Nat} {path : CgroupPath p}
    {free : x.host.dirs p = none} {fresh : ∀ q, x.host.dirs q ≠ some id}
    (unheld : ∀ j, ¬x.Holds j p) :
    Pairs { x with host := x.host.mkdir p id path free fresh } := by
  refine ⟨h.one, fun {j j' q} h₁ h₂ => ?_, h.path⟩
  have hne : q ≠ p := by
    rintro rfl
    exact unheld j h₁
  exact h.live h₁ ((Function.update_of_ne hne _ _).symm.trans h₂)

/-- A directory is removed. -/
theorem Pairs.rmdir (h : Pairs x) {p : PathBuf} {id : Nat} {made : x.host.dirs p = some id}
    {empty : ∀ pid, x.host.procs pid ≠ some id} :
    Pairs { x with host := x.host.rmdir p id made empty } := by
  refine ⟨h.one, fun {j j' q} h₁ h₂ => ?_, h.path⟩
  have hdirs : Function.update x.host.dirs p none q = some j' := h₂
  by_cases e : q = p
  · rw [e, Function.update_self] at hdirs
    cases hdirs
  · rw [Function.update_of_ne e] at hdirs
    exact h.live h₁ hdirs

theorem cgroupPaths_register {id j : Nat} {q p : PathBuf}
    (h : (c.registerCgroupDirectory root id q).cgroupPaths j = some p) :
    c.cgroupPaths j = some p ∨ j = id ∧ p = q := by
  have hupdate : Function.update c.cgroupPaths id (some q) j = some p := h
  by_cases e : j = id
  · rw [e, Function.update_self] at hupdate
    exact Or.inr ⟨e, (Option.some.inj hupdate).symm⟩
  · rw [Function.update_of_ne e] at hupdate
    exact Or.inl hupdate

/-- The paths after a write section are those of before, and the one it brings. -/
theorem cgroupPaths_write {op : InFlight} {j : Nat} {p : PathBuf}
    (h : (op.write root c).cgroupPaths j = some p) :
    c.cgroupPaths j = some p ∨ op = .identity j (some p) := by
  cases op with
  | identity id relPath =>
    simp only [InFlight.write, CacheState.identityWrite] at h
    split at h
    · exact Or.inl h
    · cases relPath with
      | none => exact Or.inl h
      | some q =>
        rcases cgroupPaths_register h with h | ⟨rfl, rfl⟩
        · exact Or.inl h
        · exact Or.inr rfl
  | evict stale =>
    have hif : (if stale j then none else c.cgroupPaths j) = some p := h
    split at hif
    · cases hif
    · exact Or.inl hif
  | merge snap => exact Or.inl h

/-- **Every clean step keeps the pairs.** -/
theorem pairs_step (h : Pairs x) (hstep : AllowedStep root Clean x x') : Pairs x' := by
  obtain ⟨e, hstep, clean⟩ := hstep
  cases hstep with
  | mkdir p id path free fresh => exact h.mkdir clean
  | rmdir p id made empty => exact h.rmdir
  | spawn pid c free live | move pid c c' hp live | exit pid | exec pid hp | identityKnown hr known
    | identityCheck hr untracked => exact h.learn rfl fun _ _ hx => Or.inl hx
  | identityRead hr relPath reads =>
    refine h.learn rfl fun id p hx => ?_
    rcases hx with hx | hx | hx
    · exact Or.inl (Or.inl hx)
    · rcases List.mem_append.mp hx with hx | hx
      · exact Or.inl (Or.inr (Or.inl hx))
      · obtain ⟨rfl, hp⟩ := InFlight.identity.inj (List.mem_singleton.mp hx)
        exact Or.inr (clean p hp.symm)
    · exact Or.inl (Or.inr (Or.inr hx))
  | bootstrapWalk hd notRoot nonzero =>
    refine h.learn rfl fun id p hx => ?_
    rcases hx with hx | hx | hx
    · exact Or.inl (Or.inl hx)
    · exact Or.inl (Or.inr (Or.inl hx))
    · rcases List.mem_append.mp hx with hx | hx
      · exact Or.inl (Or.inr (Or.inr hx))
      · obtain ⟨rfl, rfl⟩ := Prod.mk.inj (List.mem_singleton.mp hx)
        exact Or.inr hd
  | registerCgroupDirectory hd =>
    refine h.learn rfl fun id p hx => Or.inl ?_
    rcases hx with hx | hx | hx
    · rcases cgroupPaths_register hx with hx | ⟨rfl, rfl⟩
      · exact Or.inl hx
      · refine Or.inr (Or.inr ?_)
        rw [hd]
        exact List.mem_cons_self
    · exact Or.inr (Or.inl hx)
    · refine Or.inr (Or.inr ?_)
      rw [hd]
      exact List.mem_cons_of_mem _ hx
  | evictScan exist files | mergeSnapshot =>
    refine h.learn rfl fun id p hx => Or.inl ?_
    rcases hx with hx | hx | hx
    · exact Or.inl hx
    · rcases List.mem_append.mp hx with hx | hx
      · exact Or.inr (Or.inl hx)
      · cases List.mem_singleton.mp hx
    · exact Or.inr (Or.inr hx)
  | write ho =>
    refine h.learn rfl fun id p hx => Or.inl ?_
    rcases hx with hx | hx | hx
    · rcases cgroupPaths_write hx with hx | rfl
      · exact Or.inl hx
      · refine Or.inr (Or.inl ?_)
        rw [ho]
        exact List.mem_append_right _ List.mem_cons_self
    · refine Or.inr (Or.inl ?_)
      rw [ho]
      rcases List.mem_append.mp hx with hx | hx
      · exact List.mem_append_left _ hx
      · exact List.mem_append_right _ (List.mem_cons_of_mem _ hx)
    · exact Or.inr (Or.inr hx)

theorem pairs_run {host : Host}
    (run : Relation.ReflTransGen (AllowedStep root Clean) (.start host) x) : Pairs x := by
  induction run with
  | refl =>
    have hnone : ∀ id p, ¬(Node.start host).Holds id p := by
      rintro id p (h | h | h) <;> cases h
    exact ⟨fun h => absurd h (hnone _ _), fun h => absurd h (hnone _ _),
      fun h => absurd h (hnone _ _)⟩
  | tail _ hstep ih => exact pairs_step ih hstep

/-! ## What the sampler reads -/

/-- What `for_each_sample_target` gives for one cgroup. -/
structure SampleTarget where
  memPath : PathBuf
  cpuPath : PathBuf
  statPath : PathBuf

/-- `for_each_sample_target`, by cgroup. -/
def CacheState.sampleTarget (c : CacheState) (id : Nat) : Option SampleTarget :=
  match c.memoryCurrentPaths id, c.cpuStatPaths id, c.memoryStatPaths id with
  | some memPath, some cpuPath, some statPath => some ⟨memPath, cpuPath, statPath⟩
  | _, _, _ => none

/-- The files `tick` opens for a target. -/
def SampleTarget.files (t : SampleTarget) : List PathBuf := [t.memPath, t.cpuPath, t.statPath]

/-- `Path::parent` of a file. -/
def parent (file : PathBuf) : PathBuf := file.dropLast

/-- The paths of one kind of file are those of the cgroups. -/
def Follows (file : PathBuf → PathBuf) (paths files : Map Nat PathBuf) : Prop :=
  ∀ id, files id = (paths id).map file

theorem Follows.update {file : PathBuf → PathBuf} {paths files : Map Nat PathBuf}
    (h : Follows file paths files) (id : Nat) (p : PathBuf) :
    Follows file (Function.update paths id (some p))
      (Function.update files id (some (file p))) := by
  intro j
  by_cases e : j = id
  · rw [e, Function.update_self, Function.update_self]
    rfl
  · rw [Function.update_of_ne e, Function.update_of_ne e]
    exact h j

theorem Follows.evict {file : PathBuf → PathBuf} {paths files : Map Nat PathBuf}
    (h : Follows file paths files) (stale : Nat → Bool) :
    Follows file (fun id => if stale id then none else paths id)
      fun id => if stale id then none else files id := by
  intro j
  by_cases e : stale j = true
  · simp only [e, if_true, Option.map_none]
  · simp only [e]
    exact h j

/-- **The three file maps follow the paths.** -/
structure FilesFollow (root : PathBuf) (c : CacheState) : Prop where
  memoryCurrent : Follows (precomputeMemoryCurrent root) c.cgroupPaths c.memoryCurrentPaths
  memoryStat : Follows (precomputeMemoryStat root) c.cgroupPaths c.memoryStatPaths
  cpuStat : Follows (precomputeCpuStat root) c.cgroupPaths c.cpuStatPaths

theorem FilesFollow.register (h : FilesFollow root c) (id : Nat) (p : PathBuf) :
    FilesFollow root (c.registerCgroupDirectory root id p) :=
  ⟨h.memoryCurrent.update id p, h.memoryStat.update id p, h.cpuStat.update id p⟩

theorem FilesFollow.write (h : FilesFollow root c) (op : InFlight) :
    FilesFollow root (op.write root c) := by
  cases op with
  | identity id relPath =>
    simp only [InFlight.write, CacheState.identityWrite]
    split
    · exact h
    · cases relPath with
      | none => exact ⟨h.memoryCurrent, h.memoryStat, h.cpuStat⟩
      | some p => exact h.register id p
  | evict stale =>
    exact ⟨h.memoryCurrent.evict stale, h.memoryStat.evict stale, h.cpuStat.evict stale⟩
  | merge snap => exact ⟨h.memoryCurrent, h.memoryStat, h.cpuStat⟩

theorem filesFollow_step {e : NodeEvent} (h : FilesFollow root x.cache)
    (hstep : NodeStep root e x x') : FilesFollow root x'.cache := by
  cases hstep with
  | registerCgroupDirectory hd => exact h.register _ _
  | write ho => exact h.write _
  | _ => exact h

theorem filesFollow_run {host : Host}
    (run : Relation.ReflTransGen (AllowedStep root Clean) (.start host) x) :
    FilesFollow root x.cache := by
  induction run with
  | refl => exact ⟨fun _ => rfl, fun _ => rfl, fun _ => rfl⟩
  | tail _ hstep ih =>
    obtain ⟨e, hstep, -⟩ := hstep
    exact filesFollow_step ih hstep

/-- The files of a cgroup lie in its directory under the mount. -/
theorem parent_precompute (name : String) (root : PathBuf) (names : List OsName) :
    parent (precompute name root (.rootDir :: names.map .normal)) = root ++ names.map .normal := by
  have hhead : (names.map Component.normal).head? ≠ some .rootDir := by
    cases names <;> simp
  have hfilter : (names.map Component.normal).filter (· ≠ .curDir) = names.map .normal := by
    rw [List.filter_eq_self]
    simp
  have hjoin : joinPath root (names.map .normal) = root ++ names.map .normal := by
    unfold joinPath
    by_cases hroot : root = []
    · rw [if_pos (Or.inr hroot), hroot, List.nil_append]
    · rw [if_neg (not_or.mpr ⟨hhead, hroot⟩), hfilter]
  unfold precompute stripRoot
  simp only [hjoin]
  unfold joinPath parent
  by_cases hempty : root ++ names.map .normal = []
  · rw [if_pos (Or.inr hempty), hempty]
    rfl
  · rw [if_neg (not_or.mpr ⟨by simp, hempty⟩)]
    simp

theorem sampleTarget_files (h : FilesFollow root c) {id : Nat} {t : SampleTarget}
    (ht : c.sampleTarget id = some t) : ∃ p, c.cgroupPaths id = some p ∧
      ∀ f ∈ t.files, ∃ name, f = precompute name root p := by
  have hm := h.memoryCurrent id
  have hs := h.memoryStat id
  have hc := h.cpuStat id
  unfold CacheState.sampleTarget at ht
  rw [hm, hs, hc] at ht
  cases hp : c.cgroupPaths id with
  | none =>
    rw [hp] at ht
    cases ht
  | some p =>
    rw [hp] at ht
    obtain rfl := Option.some.inj ht
    refine ⟨p, rfl, fun f hf => ?_⟩
    simp only [SampleTarget.files, List.mem_cons, List.not_mem_nil, or_false] at hf
    rcases hf with rfl | rfl | rfl
    · exact ⟨"memory.current", rfl⟩
    · exact ⟨"cpu.stat", rfl⟩
    · exact ⟨"memory.stat", rfl⟩

/-- **No directory is sampled under two ids.** In every history of the host and every interleaving
of identity events, bootstrap, eviction and merges whose steps are clean: the cache maps no two ids
to one path, and the files a tick opens for two different ids lie in different directories. -/
theorem sampled_once {host : Host}
    (run : Relation.ReflTransGen (AllowedStep root Clean) (.start host) x) :
    (∀ id id' p, x.cache.cgroupPaths id = some p → x.cache.cgroupPaths id' = some p → id = id') ∧
    ∀ id id' t t', x.cache.sampleTarget id = some t → x.cache.sampleTarget id' = some t' →
      ∀ f ∈ t.files, ∀ f' ∈ t'.files, parent f = parent f' → id = id' := by
  have h := pairs_run run
  have hfollow := filesFollow_run run
  refine ⟨fun id id' p h₁ h₂ => h.one (Or.inl h₁) (Or.inl h₂), ?_⟩
  intro id id' t t' ht ht' f hf f' hf' heq
  obtain ⟨p, hp, hfiles⟩ := sampleTarget_files hfollow ht
  obtain ⟨p', hp', hfiles'⟩ := sampleTarget_files hfollow ht'
  obtain ⟨name, rfl⟩ := hfiles f hf
  obtain ⟨name', rfl⟩ := hfiles' f' hf'
  obtain ⟨names, rfl⟩ := h.path (Or.inl hp)
  obtain ⟨names', rfl⟩ := h.path (Or.inl hp')
  rw [parent_precompute, parent_precompute] at heq
  rw [List.append_cancel_left heq] at hp
  exact h.one (Or.inl hp) (Or.inl hp')

/-! ## Moves and reused paths -/

/-- The only event in the ring is handled, where `allowed` says which steps may be made. -/
theorem handle_event {allowed : Node → NodeEvent → Prop} (id pid : Nat) (p : PathBuf) {live : Nat}
    {text : Text} (hring : x.ring = [(id, pid)]) (hreading : x.reading = [])
    (hflight : x.inFlight = []) (untracked : x.cache.tracks id = false)
    (hproc : x.host.procs pid = some live) (hdir : x.host.dirs p = some live)
    (htext : procCgroup p = some text) (hread : cgroupPathFromPid text = some p)
    (hother : ∀ y, allowed y .other)
    (hallowed : ∀ y, y.host = x.host → allowed y (.read id (some p))) :
    Relation.ReflTransGen (AllowedStep root allowed) x
      { x with ring := [], cache := x.cache.registerCgroupDirectory root id p } := by
  obtain ⟨host, ring, reading, cache, inFlight, discovered⟩ := x
  obtain rfl : reading = [] := hreading
  obtain rfl : inFlight = [] := hflight
  let checked : Node := ⟨host, [], [(id, pid)], cache, [], discovered⟩
  let read : Node := ⟨host, [], [], cache, [.identity id (some p)], discovered⟩
  have hcheck : NodeStep root .other ⟨host, ring, [], cache, [], discovered⟩ checked :=
    .identityCheck hring untracked
  have hpath : NodeStep root (.read id (some p)) checked read := by
    have hpending : checked.reading = [] ++ (id, pid) :: [] := rfl
    exact .identityRead hpending (some p)
      (Or.inr ⟨live, p, text, hproc, hdir, htext, hread.symm⟩)
  have hwrite : NodeStep root .other read
      ⟨host, [], [], cache.registerCgroupDirectory root id p, [], discovered⟩ := by
    have heq : (InFlight.identity id (some p)).write root cache =
        cache.registerCgroupDirectory root id p := by
      simp only [InFlight.write, CacheState.identityWrite]
      have untracked : cache.tracks id = false := untracked
      rw [untracked]
      rfl
    have hpending : read.inFlight = [] ++ .identity id (some p) :: [] := rfl
    rw [← heq]
    exact .write hpending
  exact ((Relation.ReflTransGen.single ⟨_, hcheck, hother _⟩).tail
    ⟨_, hpath, hallowed _ rfl⟩).tail ⟨_, hwrite, hother _⟩

/-- The directory of this name at the top of the hierarchy. -/
def topDir (c : Char) : PathBuf := [.rootDir, .normal (.utf8 [c])]

theorem topDir_path (c : Char) : CgroupPath (topDir c) := ⟨[.utf8 [c]], rfl⟩

/-- A host with nothing on it. -/
def emptyHost : Host where
  dirs _ := none
  procs _ := none
  paths _ _ h := by cases h
  distinct _ _ _ h := by cases h
  placed _ _ h := by cases h

/-- The directory `a` with id 1 and a process in it. -/
def oneDir : Host :=
  (emptyHost.mkdir (topDir 'a') 1 (topDir_path 'a') rfl fun _ h => by cases h).place 10 1
    ⟨topDir 'a', rfl⟩

/-- And a directory `b` with id 2 and a process in it. -/
def twoDirs : Host :=
  (oneDir.mkdir (topDir 'b') 2 (topDir_path 'b') rfl fun q h => by
    have hdirs : Function.update (fun _ => none) (topDir 'a') (some 1) q = some 2 := h
    by_cases e : q = topDir 'a'
    · rw [e, Function.update_self] at hdirs
      cases hdirs
    · rw [Function.update_of_ne e] at hdirs
      cases hdirs).place 11 2 ⟨topDir 'b', rfl⟩

/-- **A process that moves between its exec and the handling of its event.** Its old cgroup gets the
path of the new one, and so does the new one at its first exec. -/
theorem moved_process :
    ∃ x, Relation.ReflTransGen (AllowedStep [.rootDir] fun _ _ => True) (.start twoDirs) x ∧
      x.cache.cgroupPaths 1 = some (topDir 'b') ∧ x.cache.cgroupPaths 2 = some (topDir 'b') ∧
      x.cache.sampleTarget 1 = x.cache.sampleTarget 2 := by
  let x₁ : Node := { Node.start twoDirs with ring := [(1, 10)] }
  have hexec : AllowedStep [.rootDir] (fun _ _ => True) (.start twoDirs) x₁ :=
    ⟨_, .exec 10 rfl, trivial⟩
  let x₂ : Node := { x₁ with host := twoDirs.place 10 2 ⟨topDir 'b', rfl⟩ }
  have hmove : AllowedStep [.rootDir] (fun _ _ => True) x₁ x₂ :=
    ⟨_, .move 10 1 2 rfl ⟨topDir 'b', rfl⟩, trivial⟩
  have hfirst : Relation.ReflTransGen (AllowedStep [.rootDir] fun _ _ => True) x₂ _ :=
    handle_event 1 10 (topDir 'b') rfl rfl rfl rfl rfl rfl rfl (by decide +kernel)
      (fun _ => trivial) fun _ _ => trivial
  have hexec' := ((Relation.ReflTransGen.single hexec).tail hmove).trans hfirst |>.tail
    ⟨_, .exec 11 rfl, trivial⟩
  refine ⟨_, hexec'.trans (handle_event 2 11 (topDir 'b') rfl rfl rfl rfl rfl rfl rfl
    (by decide +kernel) (fun _ => trivial) fun _ _ => trivial), rfl, rfl, rfl⟩

/-- `oneDir` without its process. -/
def idleDir : Host := oneDir.exit 10

theorem idleDir_empty (pid : Nat) : idleDir.procs pid ≠ some 1 := by
  intro h
  have hprocs : Function.update (Function.update (fun _ => none) 10 (some 1)) 10 none pid =
    some 1 := h
  rw [Function.update_idem] at hprocs
  by_cases e : pid = 10
  · rw [e, Function.update_self] at hprocs
    cases hprocs
  · rw [Function.update_of_ne e] at hprocs
    cases hprocs

/-- And without its directory. -/
def noDir : Host := idleDir.rmdir (topDir 'a') 1 rfl idleDir_empty

theorem noDir_fresh (q : PathBuf) : noDir.dirs q ≠ some 3 := by
  intro h
  have hdirs : Function.update (Function.update (fun _ => none) (topDir 'a') (some 1)) (topDir 'a')
    none q = some 3 := h
  rw [Function.update_idem] at hdirs
  by_cases e : q = topDir 'a'
  · rw [e, Function.update_self] at hdirs
    cases hdirs
  · rw [Function.update_of_ne e] at hdirs
    cases hdirs

/-- **A path that is used again before its old entry is evicted.** The directory is removed, a new
one is made in its place, and the pid comes back in it. -/
theorem path_reused :
    ∃ x, Relation.ReflTransGen (AllowedStep [.rootDir] fun _ _ => True) (.start oneDir) x ∧
      x.cache.cgroupPaths 1 = some (topDir 'a') ∧ x.cache.cgroupPaths 3 = some (topDir 'a') := by
  have hexec : AllowedStep [.rootDir] (fun _ _ => True) (.start oneDir)
      { Node.start oneDir with ring := [(1, 10)] } := ⟨_, .exec 10 rfl, trivial⟩
  have hfirst := (Relation.ReflTransGen.single hexec).trans
    (handle_event 1 10 (topDir 'a') rfl rfl rfl rfl rfl rfl rfl (by decide +kernel)
      (fun _ => trivial) fun _ _ => trivial)
  have hgone := (hfirst.tail ⟨_, .exit 10, trivial⟩).tail
    ⟨_, .rmdir (topDir 'a') 1 rfl idleDir_empty, trivial⟩
  have hagain := (hgone.tail
    ⟨_, .mkdir (topDir 'a') 3 (topDir_path 'a') rfl noDir_fresh, trivial⟩).tail
      ⟨_, .spawn 10 3 rfl ⟨topDir 'a', rfl⟩, trivial⟩
  have hexec' := hagain.tail ⟨_, .exec 10 rfl, trivial⟩
  exact ⟨_, hexec'.trans (handle_event 3 10 (topDir 'a') rfl rfl rfl rfl rfl rfl rfl
    (by decide +kernel) (fun _ => trivial) fun _ _ => trivial), rfl, rfl⟩

/-- One exec handled while its process stays. -/
theorem sampled_once_exec :
    ∃ x, Relation.ReflTransGen (AllowedStep [.rootDir] Clean) (.start oneDir) x ∧
      x.cache.cgroupPaths 1 = some (topDir 'a') ∧
      ∀ id, x.cache.cgroupPaths id = some (topDir 'a') → id = 1 := by
  let x₁ : Node := { Node.start oneDir with ring := [(1, 10)] }
  have hexec : AllowedStep [.rootDir] Clean (.start oneDir) x₁ := ⟨_, .exec 10 rfl, trivial⟩
  have hclean : ∀ y : Node, y.host = x₁.host → Clean y (.read 1 (some (topDir 'a'))) := by
    rintro y hy p hp
    rw [hy, ← Option.some.inj hp]
    rfl
  have hhandled : Relation.ReflTransGen (AllowedStep [.rootDir] Clean) x₁ _ :=
    handle_event 1 10 (topDir 'a') rfl rfl rfl rfl rfl rfl rfl (by decide +kernel)
      (fun _ => trivial) hclean
  have run := (Relation.ReflTransGen.single hexec).trans hhandled
  exact ⟨_, run, rfl, fun id hid => (sampled_once run).1 id 1 _ hid rfl⟩

end Statix.Attribution
