import Statix.Attribution.ProcCgroup
import Statix.Wal.Segment

/-!
# The files of a cgroup

Model of what the sampler reads of one cgroup: `read_memory_current_at`, `read_cpu_usage_usec_at`
and `read_inactive_file_at` (`statix/src/attribution/mod.rs`), and the working set `tick` makes of
two of them (`statix/src/memory_sampler.rs`).

* A file is its bytes; `none` when it cannot be opened or read. Every reader makes one `read` into a
  buffer of its own size, and takes what it got for the whole file.
* `flatKeyed` is how the kernel writes `cpu.stat` and `memory.stat`: lines of a key and a number.

Results:

* `readCpuUsageUsecAt_flatKeyed`, `readMemoryCurrentAt_file`: the number the kernel wrote is read.
* **`working_set_read`**: of any `memory.stat` the working set is too large at most, and it is exact
  if and only if `inactive_file` ends within the 4096 bytes that are read.
-/

namespace Statix.Sampling

open Statix.Attribution
open Statix.Lib
open Statix.Wal (parseU64 stripPrefix stripPrefix_append digitsVal)

/-! ## The model -/

/-- The errors of the readers. -/
inductive AttributionError where
  | openFile (path : PathBuf)
  | emptyMemoryCurrent (path : PathBuf)
  | invalidMemoryUtf8 (path : PathBuf)
  | parseMemoryBytes (path : PathBuf) (value : Text)
  | emptyCpuStat (path : PathBuf)
  | invalidCpuUtf8 (path : PathBuf)
  | noCpuUsageField (path : PathBuf)
  | parseCpuUsage (path : PathBuf) (value : Text)
  deriving DecidableEq

/-- A line without the `\r` of its end. -/
def dropCr (line : Text) : Text := if line.getLast? = some '\r' then line.dropLast else line

/-- `str::lines`: nothing after the last line end is no line. -/
def lines (text : Text) : List Text :=
  let parts := text.splitOn '\n'
  parts.dropLast.map dropCr ++ (parts.getLast?.filter (· ≠ [])).toList

/-- `read_memory_current_at`. -/
def readMemoryCurrentAt (path : PathBuf) (file : Option (List UInt8)) :
    Except AttributionError Nat := do
  let some bytes := file | .error (.openFile path)
  let buf := bytes.take 32
  if buf = [] then .error (.emptyMemoryCurrent path)
  let some text := fromUtf8 buf | .error (.invalidMemoryUtf8 path)
  let rawStr := trim text
  let some n := parseU64 rawStr | .error (.parseMemoryBytes path rawStr)
  return n

/-- `read_cpu_usage_usec_at`. -/
def readCpuUsageUsecAt (path : PathBuf) (file : Option (List UInt8)) :
    Except AttributionError Nat := do
  let some bytes := file | .error (.openFile path)
  let buf := bytes.take 256
  if buf = [] then .error (.emptyCpuStat path)
  let some contents := fromUtf8 buf | .error (.invalidCpuUtf8 path)
  let some firstLine := (lines contents).head? | .error (.noCpuUsageField path)
  let some rest := stripPrefix "usage_usec ".toList firstLine | .error (.noCpuUsageField path)
  let value := trim rest
  let some n := parseU64 value | .error (.parseCpuUsage path value)
  return n

/-- `read_inactive_file_at`. -/
def readInactiveFileAt (file : Option (List UInt8)) : Option Nat := do
  let bytes ← file
  let contents ← fromUtf8 (bytes.take 4096)
  let value ← (lines contents).findSome? (stripPrefix "inactive_file ".toList)
  parseU64 (trim value)

/-- The memory half of a turn of `tick`'s first loop, with the files it reads. -/
def readWorkingSet (memPath : PathBuf) (memoryCurrent memoryStat : Option (List UInt8)) :
    Option Nat :=
  match readMemoryCurrentAt memPath memoryCurrent with
  | .ok current => some (current - (readInactiveFileAt memoryStat).getD 0)
  | .error _ => none

/-! ## What the kernel writes -/

/-- A number in decimal. -/
def decimal (n : Nat) : Text := Nat.toDigits 10 n

/-- The line of an entry. -/
def keyLine (e : Text × Nat) : Text := e.1 ++ ' ' :: decimal e.2

/-- Lines of a key and a number. -/
def flatKeyed (entries : List (Text × Nat)) : Text :=
  entries.flatMap fun e => keyLine e ++ ['\n']

/-- Keys are printable ASCII without a space. -/
def IsKey (key : Text) : Prop := ∀ c ∈ key, 33 ≤ c.toNat ∧ c.toNat ≤ 126

theorem isKey_of_all {key : Text}
    (h : key.all (fun c => 33 ≤ c.toNat && c.toNat ≤ 126) = true) : IsKey key := fun c hc => by
  simpa using List.all_eq_true.mp h c hc

/-- What is in `memory.current`. -/
def memoryCurrentFile (bytes : Nat) : List UInt8 := utf8 (decimal bytes ++ ['\n'])

/-- What is in `cpu.stat`: the total first. -/
def cpuStatFile (usageUsec : Nat) (rest : List (Text × Nat)) : List UInt8 :=
  utf8 (flatKeyed (("usage_usec".toList, usageUsec) :: rest))

/-- The first value of a key. -/
def valueOf (key : Text) (entries : List (Text × Nat)) : Nat :=
  ((entries.find? fun e => e.1 = key).map Prod.snd).getD 0

/-- How many bytes there are in front of the first value of a key. -/
def startOf (key : Text) : List (Text × Nat) → Nat
  | [] => 0
  | e :: rest => if e.1 = key then key.length + 1 else (keyLine e).length + 1 + startOf key rest

/-! ## Decimal numbers -/

theorem isDigit_decimal {n : Nat} {c : Char} (h : c ∈ decimal n) : c.isDigit = true :=
  Nat.isDigit_of_mem_toDigits (by decide) (by decide) h

theorem digitsVal_reverse (ds : Text) : digitsVal ds.reverse = Nat.ofDigitChars 10 ds 0 := by
  unfold digitsVal
  rw [List.foldr_reverse, Nat.ofDigitChars_eq_foldl]
  congr 1
  funext n c
  exact Nat.add_comm _ _

/-- Digits are read as their value. -/
theorem parseU64_digits {ds : Text} (hne : ds ≠ []) (hall : ∀ c ∈ ds, c.isDigit = true)
    (hlt : Nat.ofDigitChars 10 ds 0 < 2 ^ 64) : parseU64 ds = some (Nat.ofDigitChars 10 ds 0) := by
  unfold parseU64
  split
  · exact absurd (hall '+' List.mem_cons_self) (by decide)
  · simp only [digitsVal_reverse]
    rw [if_pos ⟨hne, List.all_eq_true.mpr hall, hlt⟩]

theorem digit_range {c : Char} (h : c.isDigit = true) : 48 ≤ c.toNat ∧ c.toNat ≤ 57 := by
  simp only [Char.isDigit, Bool.and_eq_true, decide_eq_true_eq] at h
  exact ⟨h.1, h.2⟩

theorem ofDigitChars_lt {ds : Text} (hall : ∀ c ∈ ds, c.isDigit = true) :
    Nat.ofDigitChars 10 ds 0 < 10 ^ ds.length := by
  induction ds with
  | nil => exact Nat.one_pos
  | cons c ds ih =>
    have ih := ih fun x hx => hall x (List.mem_cons_of_mem _ hx)
    have hc : c.toNat - '0'.toNat < 10 := by
      have hle := (digit_range (hall c List.mem_cons_self)).2
      have hzero : '0'.toNat = 48 := rfl
      omega
    rw [Nat.ofDigitChars_cons, Nat.ofDigitChars_eq_ofDigitChars_zero, List.length_cons, pow_succ]
    calc 10 ^ ds.length * (10 * 0 + (c.toNat - '0'.toNat)) + Nat.ofDigitChars 10 ds 0
        < 10 ^ ds.length * (10 * 0 + (c.toNat - '0'.toNat)) + 10 ^ ds.length := by omega
      _ = 10 ^ ds.length * (c.toNat - '0'.toNat + 1) := by ring
      _ ≤ 10 ^ ds.length * 10 := Nat.mul_le_mul_left _ hc

/-- The first digits of a number are the number without the last ones. -/
theorem ofDigitChars_take (n k : Nat) : Nat.ofDigitChars 10 ((decimal n).take k) 0 =
    n / 10 ^ ((decimal n).length - k) := by
  have hsplit : Nat.ofDigitChars 10 ((decimal n).take k ++ (decimal n).drop k) 0 = n := by
    rw [List.take_append_drop]
    exact Nat.ofDigitChars_ten_toDigits
  rw [Nat.ofDigitChars_append, Nat.ofDigitChars_eq_ofDigitChars_zero, List.length_drop] at hsplit
  have hlt := @ofDigitChars_lt ((decimal n).drop k) fun c hc =>
    isDigit_decimal (List.mem_of_mem_drop hc)
  rw [List.length_drop] at hlt
  have hpos : 0 < 10 ^ ((decimal n).length - k) := Nat.pow_pos (by decide)
  calc Nat.ofDigitChars 10 ((decimal n).take k) 0
      = (10 ^ ((decimal n).length - k) * Nat.ofDigitChars 10 ((decimal n).take k) 0 +
          Nat.ofDigitChars 10 ((decimal n).drop k) 0) / 10 ^ ((decimal n).length - k) := by
        rw [Nat.mul_add_div hpos, Nat.div_eq_of_lt hlt, Nat.add_zero]
    _ = n / 10 ^ ((decimal n).length - k) := by rw [hsplit]

/-- What is read of the first digits of a number. -/
theorem parseU64_take {n : Nat} (hn : n < 2 ^ 64) (k : Nat) : parseU64 ((decimal n).take k) =
    if k = 0 then none else some (n / 10 ^ ((decimal n).length - k)) := by
  split
  · next hk =>
    rw [hk, List.take_zero]
    rfl
  · next hk =>
    have hne : (decimal n).take k ≠ [] := by
      rw [Ne, List.take_eq_nil_iff]
      exact not_or.mpr ⟨hk, Nat.toDigits_ne_nil⟩
    have hval := ofDigitChars_take n k
    rw [parseU64_digits hne (fun c hc => isDigit_decimal (List.mem_of_mem_take hc)), hval]
    rw [hval]
    exact Nat.lt_of_le_of_lt (Nat.div_le_self _ _) hn

theorem parseU64_decimal {n : Nat} (hn : n < 2 ^ 64) : parseU64 (decimal n) = some n := by
  have hlen : (decimal n).length ≠ 0 := fun e =>
    Nat.toDigits_ne_nil (List.length_eq_zero_iff.mp e)
  have h := parseU64_take hn ((decimal n).length)
  rwa [List.take_length, if_neg hlen, Nat.sub_self, pow_zero, Nat.div_one] at h

/-! ## Lines -/

theorem lines_nil : lines [] = [] := rfl

/-- A text that ends inside its first line. -/
theorem lines_last {line : Text} (h : '\n' ∉ line) (hne : line ≠ []) : lines line = [line] := by
  unfold lines
  rw [List.splitOn_eq_singleton h]
  simp [hne]

theorem lines_cons {line : Text} (h : '\n' ∉ line) (rest : Text) :
    lines (line ++ '\n' :: rest) = dropCr line :: lines rest := by
  unfold lines
  obtain ⟨first, parts, hsplit⟩ := List.exists_cons_of_ne_nil (List.splitOn_ne_nil '\n' rest)
  rw [List.splitOn_append_cons_self_of_not_mem h, hsplit]
  rfl

/-- The characters of a line. -/
theorem mem_keyLine {e : Text × Nat} (he : IsKey e.1) {c : Char} (h : c ∈ keyLine e) :
    c = ' ' ∨ 33 ≤ c.toNat ∧ c.toNat ≤ 126 := by
  unfold keyLine at h
  rw [List.mem_append, List.mem_cons] at h
  rcases h with h | rfl | h
  · exact Or.inr (he c h)
  · exact Or.inl rfl
  · have hdigit := digit_range (isDigit_decimal h)
    exact Or.inr ⟨by omega, by omega⟩

theorem noControl_keyLine {e : Text × Nat} (he : IsKey e.1) {c : Char} (hc : c.toNat < 32) :
    c ∉ keyLine e := by
  intro h
  rcases mem_keyLine he h with rfl | ⟨hle, -⟩
  · exact absurd hc (by decide)
  · omega

/-- A line the kernel writes ends in a digit. -/
theorem dropCr_keyLine {e : Text × Nat} (he : IsKey e.1) : dropCr (keyLine e) = keyLine e :=
  if_neg fun h => noControl_keyLine he (by decide) (List.mem_of_getLast? h)

/-! ## The bytes that are read -/

theorem utf8Size_ascii {c : Char} (h : c.toNat < 128) : c.utf8Size = 1 :=
  Char.utf8Size_eq_one_iff.mpr (Nat.le_of_lt_succ h)

theorem ascii_flatKeyed {entries : List (Text × Nat)} (keys : ∀ e ∈ entries, IsKey e.1) {c : Char}
    (h : c ∈ flatKeyed entries) : c.toNat < 128 := by
  unfold flatKeyed at h
  obtain ⟨e, he, hc⟩ := List.mem_flatMap.mp h
  rcases List.mem_append.mp hc with hc | hc
  · rcases mem_keyLine (keys e he) hc with rfl | ⟨-, hle⟩
    · decide
    · omega
  · rw [List.mem_singleton.mp hc]
    decide

/-- ASCII is read up to the end of the buffer. -/
theorem readText_ascii {text : Text} (h : ∀ c ∈ text, c.toNat < 128) (n : Nat) :
    readText n text = some (text.take n) := by
  induction text generalizing n with
  | nil => cases n <;> rfl
  | cons c text ih =>
    cases n with
    | zero => rfl
    | succ n =>
      have hsize := utf8Size_ascii (h c List.mem_cons_self)
      have ih := ih (fun x hx => h x (List.mem_cons_of_mem _ hx)) n
      have hread : readText (n + 1) (c :: text) = if c.utf8Size ≤ n + 1 then
          (readText (n + 1 - c.utf8Size) text).map (c :: ·) else none := rfl
      rw [hread, hsize, if_pos (Nat.le_add_left 1 n), Nat.add_sub_cancel, ih]
      rfl

theorem fromUtf8_flatKeyed {entries : List (Text × Nat)} (keys : ∀ e ∈ entries, IsKey e.1)
    (n : Nat) :
    fromUtf8 ((utf8 (flatKeyed entries)).take n) = some ((flatKeyed entries).take n) := by
  rw [fromUtf8_take]
  exact readText_ascii (fun c hc => ascii_flatKeyed keys hc) n

/-! ## One line that is cut -/

/-- The lines of the first bytes of a file. -/
theorem lines_take {e : Text × Nat} (he : IsKey e.1) (rest : List (Text × Nat)) (n : Nat) :
    lines ((flatKeyed (e :: rest)).take n) =
      if n = 0 then [] else
        (keyLine e).take n :: lines ((flatKeyed rest).take (n - ((keyLine e).length + 1))) := by
  have hno : '\n' ∉ keyLine e := noControl_keyLine he (by decide)
  have hflat : flatKeyed (e :: rest) = keyLine e ++ '\n' :: flatKeyed rest := by
    unfold flatKeyed
    rw [List.flatMap_cons, List.append_assoc]
    rfl
  rw [hflat, List.take_append]
  by_cases hn : n = 0
  · rw [if_pos hn, hn, Nat.zero_sub, List.take_zero, List.take_zero]
    rfl
  · rw [if_neg hn]
    by_cases hlen : n ≤ (keyLine e).length
    · have hne : (keyLine e).take n ≠ [] := by
        rw [Ne, List.take_eq_nil_iff]
        refine not_or.mpr ⟨hn, fun e => ?_⟩
        rw [e] at hlen
        exact hn (Nat.le_zero.mp hlen)
      rw [Nat.sub_eq_zero_of_le hlen, List.take_zero, List.append_nil,
        lines_last (fun h => hno (List.mem_of_mem_take h)) hne, Nat.sub_eq_zero_of_le (by omega),
        List.take_zero, lines_nil]
    · obtain ⟨k, hk⟩ : ∃ k, n - (keyLine e).length = k + 1 := ⟨n - (keyLine e).length - 1, by omega⟩
      have hrest : n - ((keyLine e).length + 1) = k := by omega
      rw [hk, List.take_succ_cons, List.take_of_length_le (by omega), lines_cons hno,
        dropCr_keyLine he, hrest]

/-- The key of a line is what is before its space. -/
theorem prefix_keyLine {key : Text} (hkey : IsKey key) {e : Text × Nat} (he : IsKey e.1) :
    key ++ [' '] <+: keyLine e ↔ e.1 = key := by
  unfold keyLine
  constructor
  · rintro ⟨t, ht⟩
    have hspace : ∀ {k : Text}, IsKey k → ∀ rest, (k ++ ' ' :: rest).takeWhile (· ≠ ' ') = k := by
      intro k hk rest
      rw [List.takeWhile_append_of_pos fun c hc => ?_, List.takeWhile_cons_of_neg (by simp),
        List.append_nil]
      have hc := (hk c hc).1
      refine decide_eq_true fun e => ?_
      rw [e] at hc
      exact absurd hc (by decide)
    have hboth := congrArg (List.takeWhile (· ≠ ' ')) ht
    rw [List.append_assoc, List.singleton_append, hspace hkey, hspace he] at hboth
    exact hboth.symm
  · rintro rfl
    exact ⟨decimal e.2, by rw [List.append_assoc, List.singleton_append]⟩

/-- What is found of a key in the first bytes of its line. -/
theorem stripPrefix_take {key : Text} (hkey : IsKey key) {e : Text × Nat} (he : IsKey e.1)
    (n : Nat) : stripPrefix (key ++ [' ']) ((keyLine e).take n) =
      if e.1 = key ∧ key.length + 1 ≤ n then some ((decimal e.2).take (n - (key.length + 1)))
      else none := by
  have hlen : (key ++ [' ']).length = key.length + 1 := List.length_append
  have hfound : ((keyLine e).take n).take (key ++ [' ']).length = key ++ [' '] ↔
      e.1 = key ∧ key.length + 1 ≤ n := by
    rw [eq_comm, ← List.prefix_iff_eq_take, List.prefix_take_iff, prefix_keyLine hkey he, hlen]
  unfold stripPrefix
  by_cases h : e.1 = key ∧ key.length + 1 ≤ n
  · have hdrop : (keyLine e).drop (key ++ [' ']).length = decimal e.2 := by
      have hline : keyLine e = key ++ [' '] ++ decimal e.2 := by
        rw [← h.1, List.append_assoc]
        rfl
      rw [hline, List.drop_left]
    rw [if_pos h, if_pos (hfound.mpr h), List.drop_take, hdrop, hlen]
  · rw [if_neg h, if_neg fun e => h (hfound.mp e)]

/-! ## The value of a key -/

theorem valueOf_cons (key : Text) (e : Text × Nat) (rest : List (Text × Nat)) :
    valueOf key (e :: rest) = if e.1 = key then e.2 else valueOf key rest := by
  unfold valueOf
  by_cases h : e.1 = key <;> simp [h]

theorem startOf_cons (key : Text) (e : Text × Nat) (rest : List (Text × Nat)) :
    startOf key (e :: rest) =
      if e.1 = key then key.length + 1 else (keyLine e).length + 1 + startOf key rest := rfl

theorem length_keyLine (e : Text × Nat) :
    (keyLine e).length = e.1.length + 1 + (decimal e.2).length := by
  unfold keyLine
  rw [List.length_append, List.length_cons]
  omega

/-- The value is behind its key. -/
theorem startOf_pos {key : Text} {entries : List (Text × Nat)} (h : key ∈ entries.map Prod.fst) :
    0 < startOf key entries := by
  cases entries with
  | nil => cases h
  | cons e rest =>
    rw [startOf_cons]
    split <;> omega

/-- Of the first value of a key, the digits that are among the first bytes. -/
def digitsIn (key : Text) (entries : List (Text × Nat)) (n : Nat) : Option Text :=
  if key ∈ entries.map Prod.fst ∧ startOf key entries ≤ n then
    some ((decimal (valueOf key entries)).take (n - startOf key entries))
  else none

theorem digitsIn_zero (key : Text) (entries : List (Text × Nat)) : digitsIn key entries 0 = none :=
  if_neg fun h => Nat.lt_irrefl 0 (Nat.lt_of_lt_of_le (startOf_pos h.1) h.2)

theorem digitsIn_first {key : Text} {e : Text × Nat} (h : e.1 = key) (rest : List (Text × Nat))
    (n : Nat) : digitsIn key (e :: rest) n =
      if key.length + 1 ≤ n then some ((decimal e.2).take (n - (key.length + 1))) else none := by
  have hmem : key ∈ (e :: rest).map Prod.fst := h ▸ List.mem_cons_self
  unfold digitsIn
  rw [valueOf_cons, startOf_cons, if_pos h, if_pos h]
  simp only [hmem, true_and]

theorem digitsIn_other {key : Text} {e : Text × Nat} (h : e.1 ≠ key) (rest : List (Text × Nat))
    (n : Nat) : digitsIn key (e :: rest) n = digitsIn key rest (n - ((keyLine e).length + 1)) := by
  have hmem : key ∈ (e :: rest).map Prod.fst ↔ key ∈ rest.map Prod.fst := by
    rw [List.map_cons, List.mem_cons]
    exact or_iff_right (Ne.symm h)
  unfold digitsIn
  rw [valueOf_cons, startOf_cons, if_neg h, if_neg h]
  by_cases hrest : key ∈ rest.map Prod.fst ∧ startOf key rest ≤ n - ((keyLine e).length + 1)
  · have := startOf_pos hrest.1
    rw [if_pos hrest, if_pos ⟨hmem.mpr hrest.1, by omega⟩, Nat.sub_sub]
  · rw [if_neg hrest, if_neg fun h => hrest ⟨hmem.mp h.1, by omega⟩]

/-- **What is found of a key** in the first bytes of a file. -/
theorem findSome_flatKeyed {key : Text} (hkey : IsKey key) {entries : List (Text × Nat)}
    (keys : ∀ e ∈ entries, IsKey e.1) (n : Nat) :
    (lines ((flatKeyed entries).take n)).findSome? (stripPrefix (key ++ [' '])) =
      digitsIn key entries n := by
  induction entries generalizing n with
  | nil =>
    have hnone : digitsIn key [] n = none := if_neg fun h => (by cases h.1)
    unfold flatKeyed
    rw [hnone, List.flatMap_nil, List.take_nil, lines_nil, List.findSome?_nil]
  | cons e rest ih =>
    have he := keys e List.mem_cons_self
    have ih := ih fun x hx => keys x (List.mem_cons_of_mem _ hx)
    rw [lines_take he rest n]
    by_cases hn : n = 0
    · rw [if_pos hn, hn, digitsIn_zero, List.findSome?_nil]
    · rw [if_neg hn, List.findSome?_cons, stripPrefix_take hkey he, ih]
      by_cases hfirst : e.1 = key
      · rw [digitsIn_first hfirst]
        by_cases hk : key.length + 1 ≤ n
        · rw [if_pos ⟨hfirst, hk⟩, if_pos hk]
        · -- the key itself is cut, and nothing is left of the other lines
          have hlen : n - ((keyLine e).length + 1) = 0 := by
            rw [length_keyLine, hfirst]
            omega
          rw [if_neg fun h => hk h.2, if_neg hk, hlen, digitsIn_zero]
      · rw [if_neg fun h => hfirst h.1, digitsIn_other hfirst]

/-! ## What is read -/

theorem notWhitespace_decimal {n : Nat} {c : Char} (h : c ∈ decimal n) :
    isWhitespace c = false := by
  have hdigit := digit_range (isDigit_decimal h)
  unfold isWhitespace
  simp only [Bool.or_eq_false_iff, Bool.and_eq_false_iff, beq_eq_false_iff_ne,
    decide_eq_false_iff_not]
  omega

/-- A text without white space is its own `trim`. -/
theorem trim_eq_self {s : Text} (h : ∀ c ∈ s, isWhitespace c = false) : trim s = s := by
  have hdrop : ∀ {t : Text}, (∀ c ∈ t, isWhitespace c = false) → t.dropWhile isWhitespace = t := by
    intro t ht
    cases t with
    | nil => rfl
    | cons c t =>
      exact List.dropWhile_cons_of_neg (by rw [ht c List.mem_cons_self]; exact Bool.false_ne_true)
  unfold trim
  rw [hdrop h, hdrop fun c hc => h c (List.mem_reverse.mp hc), List.reverse_reverse]

theorem isKey_inactiveFile : IsKey "inactive_file".toList := isKey_of_all (by decide)

/-- **What is read of `inactive_file`**: the digits of its value that are among the first 4096
bytes. -/
theorem readInactiveFileAt_flatKeyed {stat : List (Text × Nat)} (keys : ∀ e ∈ stat, IsKey e.1) :
    readInactiveFileAt (some (utf8 (flatKeyed stat))) =
      (digitsIn "inactive_file".toList stat 4096).bind parseU64 := by
  have hfound := findSome_flatKeyed isKey_inactiveFile keys 4096
  have hkey : "inactive_file".toList ++ [' '] = "inactive_file ".toList := by decide
  rw [hkey] at hfound
  unfold readInactiveFileAt
  simp only [Option.bind_eq_bind, Option.bind_some, fromUtf8_flatKeyed keys, hfound]
  unfold digitsIn
  split
  · rw [Option.bind_some, Option.bind_some, trim_eq_self fun c hc =>
      notWhitespace_decimal (List.mem_of_mem_take hc)]
  · rfl

theorem valueOf_missing {key : Text} {entries : List (Text × Nat)}
    (h : key ∉ entries.map Prod.fst) : valueOf key entries = 0 := by
  have hnone : entries.find? (fun e => e.1 = key) = none := by
    refine List.find?_eq_none.mpr fun e he hkey => h ?_
    exact List.mem_map.mpr ⟨e, he, of_decide_eq_true hkey⟩
  unfold valueOf
  rw [hnone]
  rfl

/-- The digits of a number that come before a cut. -/
theorem seen_of_cut {n : Nat} (hn : n < 2 ^ 64) (k : Nat) :
    ∃ seen ≤ n, (parseU64 ((decimal n).take k)).getD 0 = seen ∧
      (seen = n ↔ (decimal n).length ≤ k ∨ n = 0) := by
  have hlen : 0 < (decimal n).length := List.length_pos_iff.mpr Nat.toDigits_ne_nil
  rw [parseU64_take hn]
  split
  · next hk =>
    refine ⟨0, Nat.zero_le n, rfl, fun h => Or.inr h.symm, fun h => ?_⟩
    rcases h with h | h
    · omega
    · exact h.symm
  · refine ⟨_, Nat.div_le_self n _, rfl, fun h => ?_, fun h => ?_⟩
    · by_contra hnot
      obtain ⟨hcut, hpos⟩ := not_or.mp hnot
      have hten : 1 < 10 ^ ((decimal n).length - k) :=
        Nat.one_lt_pow (by omega) (by decide)
      exact Nat.ne_of_lt (Nat.div_lt_self (Nat.pos_of_ne_zero hpos) hten) h
    · rcases h with h | h
      · rw [Nat.sub_eq_zero_of_le h, pow_zero, Nat.div_one]
      · rw [h, Nat.zero_div]

/-- A number of 64 bits has at most 20 digits. -/
theorem length_decimal {n : Nat} (hn : n < 2 ^ 64) : (decimal n).length ≤ 20 :=
  (Nat.length_toDigits_le_iff (by decide) (by decide)).mpr
    (Nat.lt_trans hn (by decide : 2 ^ 64 < 10 ^ 20))

theorem trim_newline {s : Text} (h : ∀ c ∈ s, isWhitespace c = false) (hne : s ≠ []) :
    trim (s ++ ['\n']) = s := by
  obtain ⟨c, rest, rfl⟩ := List.exists_cons_of_ne_nil hne
  have hc : ¬isWhitespace c = true := by
    rw [h c List.mem_cons_self]
    exact Bool.false_ne_true
  have hself := trim_eq_self h
  unfold trim at hself ⊢
  rw [List.dropWhile_cons_of_neg hc] at hself
  rw [List.cons_append, List.dropWhile_cons_of_neg hc, ← List.cons_append, List.reverse_append,
    List.reverse_singleton, List.singleton_append, List.dropWhile_cons_of_pos (by decide), hself]

/-- **`memory.current` is read as the kernel wrote it.** -/
theorem readMemoryCurrentAt_file (path : PathBuf) {n : Nat} (hn : n < 2 ^ 64) :
    readMemoryCurrentAt path (some (memoryCurrentFile n)) = .ok n := by
  have htext : fromUtf8 ((memoryCurrentFile n).take 32) = some (decimal n ++ ['\n']) := by
    have hascii : ∀ c ∈ decimal n ++ ['\n'], c.toNat < 128 := by
      intro c hc
      rcases List.mem_append.mp hc with hc | hc
      · have hle := (digit_range (isDigit_decimal hc)).2
        omega
      · rw [List.mem_singleton.mp hc]
        decide
    have hlen : (decimal n ++ ['\n']).length ≤ 32 := by
      rw [List.length_append, List.length_singleton]
      have := length_decimal hn
      omega
    unfold memoryCurrentFile
    rw [fromUtf8_take, readText_ascii hascii, List.take_of_length_le hlen]
  have hne : (memoryCurrentFile n).take 32 ≠ [] := fun e => by
    rw [e] at htext
    have hnil : decimal n ++ ['\n'] = [] := (Option.some.inj htext).symm
    exact absurd hnil (List.append_ne_nil_of_right_ne_nil _ (List.cons_ne_nil _ _))
  have htrim := trim_newline (fun c hc => notWhitespace_decimal hc) (Nat.toDigits_ne_nil (n := n))
  unfold readMemoryCurrentAt
  simp only [hne, htext, htrim, parseU64_decimal hn]
  rfl

/-- **`cpu.stat` is read as the kernel wrote it**, whatever follows the total. -/
theorem readCpuUsageUsecAt_flatKeyed (path : PathBuf) {n : Nat} (hn : n < 2 ^ 64)
    {rest : List (Text × Nat)} (keys : ∀ e ∈ rest, IsKey e.1) :
    readCpuUsageUsecAt path (some (cpuStatFile n rest)) = .ok n := by
  have hkey : IsKey "usage_usec".toList := isKey_of_all (by decide)
  have hkeys : ∀ e ∈ ("usage_usec".toList, n) :: rest, IsKey e.1 := by
    intro e he
    rcases List.mem_cons.mp he with rfl | he
    · exact hkey
    · exact keys e he
  have htext := fromUtf8_flatKeyed hkeys 256
  have hne : (cpuStatFile n rest).take 256 ≠ [] := by
    unfold cpuStatFile flatKeyed keyLine
    rw [Ne, List.take_eq_nil_iff]
    exact fun e => e.elim (by decide) fun e => by cases e
  have hlen : (keyLine ("usage_usec".toList, n)).length ≤ 256 := by
    have := length_decimal hn
    rw [length_keyLine]
    simp only [String.reduceToList, List.length_cons, List.length_nil]
    omega
  have hfirst : (lines ((flatKeyed (("usage_usec".toList, n) :: rest)).take 256)).head? =
      some ("usage_usec ".toList ++ decimal n) := by
    rw [lines_take hkey rest 256, if_neg (by decide), List.take_of_length_le hlen]
    rfl
  have htrim : trim (decimal n) = decimal n := trim_eq_self fun c hc => notWhitespace_decimal hc
  unfold readCpuUsageUsecAt
  unfold cpuStatFile at hne ⊢
  simp only [hne, htext, hfirst, stripPrefix_append, htrim, parseU64_decimal hn]
  rfl

theorem inactive_seen {stat : List (Text × Nat)}
    (fits : valueOf "inactive_file".toList stat < 2 ^ 64) :
    ∃ seen ≤ valueOf "inactive_file".toList stat,
      ((digitsIn "inactive_file".toList stat 4096).bind parseU64).getD 0 = seen ∧
        (seen = valueOf "inactive_file".toList stat ↔
          startOf "inactive_file".toList stat +
              (decimal (valueOf "inactive_file".toList stat)).length ≤ 4096 ∨
            valueOf "inactive_file".toList stat = 0) := by
  obtain ⟨seen, hle, hseen, hiff⟩ :=
    seen_of_cut fits (4096 - startOf "inactive_file".toList stat)
  have hpos : 0 < (decimal (valueOf "inactive_file".toList stat)).length :=
    List.length_pos_iff.mpr Nat.toDigits_ne_nil
  unfold digitsIn
  split
  · next h =>
    refine ⟨seen, hle, hseen, hiff.trans (or_congr_left ?_)⟩
    omega
  · next h =>
    refine ⟨0, Nat.zero_le _, rfl, fun e => Or.inr e.symm, fun e => ?_⟩
    rcases e with e | e
    · have hmissing : "inactive_file".toList ∉ stat.map Prod.fst := fun hm => h ⟨hm, by omega⟩
      exact (valueOf_missing hmissing).symm
    · exact e.symm

/-- **The working set is too large at most.** For every value of `memory.current` and every
`memory.stat` the kernel can write, whatever is in front of `inactive_file`: the sampler takes off a
part of it, and all of it if and only if the value ends within the 4096 bytes it reads. -/
theorem working_set_read (memPath : PathBuf) {current : Nat} (hcurrent : current < 2 ^ 64)
    {stat : List (Text × Nat)} (keys : ∀ e ∈ stat, IsKey e.1)
    (fits : valueOf "inactive_file".toList stat < 2 ^ 64) :
    let inactive := valueOf "inactive_file".toList stat
    let read := readWorkingSet memPath (some (memoryCurrentFile current))
    read none = some current ∧ ∃ seen ≤ inactive,
      read (some (utf8 (flatKeyed stat))) = some (current - seen) ∧
        (seen = inactive ↔
          startOf "inactive_file".toList stat + (decimal inactive).length ≤ 4096 ∨
            inactive = 0) := by
  intro inactive read
  have hread : ∀ file, read file = some (current - (readInactiveFileAt file).getD 0) := by
    intro file
    simp only [read, readWorkingSet, readMemoryCurrentAt_file memPath hcurrent]
  obtain ⟨seen, hle, hseen, hiff⟩ := inactive_seen fits
  refine ⟨hread none, seen, hle, ?_, hiff⟩
  rw [hread, readInactiveFileAt_flatKeyed keys, hseen]

/-- A short file, of which the value is seen whole. -/
theorem working_set_read_short : ∃ stat : List (Text × Nat),
    valueOf "inactive_file".toList stat = 700 ∧
      readWorkingSet [] (some (memoryCurrentFile 4096)) (some (utf8 (flatKeyed stat))) =
        some 3396 := by
  let stat : List (Text × Nat) := [("anon".toList, 100), ("file".toList, 900),
    ("inactive_anon".toList, 0), ("inactive_file".toList, 700), ("active_file".toList, 200)]
  have keys : ∀ e ∈ stat, IsKey e.1 := by
    intro e he
    have hall : stat.all (fun e => e.1.all fun c => 33 ≤ c.toNat && c.toNat ≤ 126) = true := by
      decide
    exact isKey_of_all (List.all_eq_true.mp hall e he)
  have hval : valueOf "inactive_file".toList stat = 700 := by decide
  obtain ⟨-, seen, -, hread, hiff⟩ :=
    working_set_read [] (by decide : 4096 < 2 ^ 64) keys (by rw [hval]; decide)
  have hseen := hiff.mpr (Or.inl (by decide))
  rw [hseen, hval] at hread
  exact ⟨stat, hval, hread⟩

end Statix.Sampling
