import Statix.Attribution.Host
import Statix.Attribution.Search
import Statix.Lib.Utf8

/-!
# The lines of `/proc/<pid>/cgroup`

`cgroup_path_from_pid` (`statix/src/attribution/mod.rs`) on the bytes of the file. It reads 1024 of
them, and `parse_cgroup_v2_path_line` looks for a path in each line: after the first `::`, or else
after the last `:`, as lines of cgroup v1 have it. The first line with a path decides, so a v1 line in
front of the `0::` line does.

* `procPath`: the text of the path. `cgroupPathFromPid_eq`: it is what `cgroupPathFromPid` makes a
  `PathBuf` of.
* `LinePath`: the path of a line, without the parser.
* `Undisturbed`: the lines before the `0::` line that matter name the same path.

Result:

* **`v2_path_wins_iff`**: when the path of the `0::` line is returned.
-/

namespace Statix.Attribution

open Statix.Lib

/-- `cgroup_path_from_pid`, of the bytes in the file: the text of the path. -/
def procPath (file : List UInt8) : Option Text :=
  match fromUtf8 (file.take 1024) with
  | none => none
  | some [] => none
  | some text => (text.splitOn '\n').findSome? parseCgroupV2PathLine

/-- A path from the root. -/
def Absolute (path : Text) : Prop := path.head? = some '/'

/-- `path` follows the first `::` of the line. -/
def AfterColons (line path : Text) : Prop :=
  ∃ front, line = front ++ "::".toList ++ path ∧ ∀ i < front.length, ¬ "::".toList <+: line.drop i

/-- `path` follows the last `:` of the line, or is the line. -/
def AfterLastColon (line path : Text) : Prop :=
  ':' ∉ path ∧ (line = path ∨ ∃ front, line = front ++ ':' :: path)

/-- **The path of a line**: after `::` if that is one, as in cgroup v2, or else after the last colon,
as in v1. -/
def LinePath (line path : Text) : Prop :=
  Absolute path ∧ (AfterColons (trim line) path ∨
    (∀ q, Absolute q → ¬ AfterColons (trim line) q) ∧ AfterLastColon (trim line) path)

/-- If there is a line with a path, the first one has the path `p`. -/
def Undisturbed (lines : List Text) (p : Text) : Prop :=
  ∀ before line after, lines = before ++ line :: after → (∀ x ∈ before, ∀ q, ¬ LinePath x q) →
    ∀ q, LinePath line q → q = p

variable {line path p : Text} {lines : List Text}

/-! ## One line -/

theorem afterOnce_colons (line path : Text) :
    afterOnce "::".toList line = some path ↔ AfterColons line path :=
  afterOnce_eq_some_iff (by decide)

theorem rsplitNext_eq_iff (line path : Text) :
    rsplitNext ':' line = path ↔ AfterLastColon line path := by
  constructor
  · rintro rfl
    have hparts := List.takeWhile_append_dropWhile (p := (· ≠ ':')) (l := line.reverse)
    unfold rsplitNext
    refine ⟨fun hmem => ?_, ?_⟩
    · have := List.mem_takeWhile_imp (List.mem_reverse.mp hmem)
      simp at this
    · cases hrest : line.reverse.dropWhile (· ≠ ':') with
      | nil =>
        left
        rw [hrest, List.append_nil] at hparts
        rw [hparts, List.reverse_reverse]
      | cons c rest =>
        right
        have hc : c = ':' := by
          have := List.head?_dropWhile_not (· ≠ ':') line.reverse
          rw [hrest] at this
          simpa using this
        refine ⟨rest.reverse, ?_⟩
        rw [hrest, hc] at hparts
        have := congrArg List.reverse hparts
        rw [List.reverse_append, List.reverse_reverse, List.reverse_cons] at this
        rw [List.append_assoc] at this
        exact this.symm
  · rintro ⟨hfree, rfl | ⟨front, rfl⟩⟩
    · exact rsplitNext_of_notMem hfree
    · exact rsplitNext_append hfree front

theorem linePath_nonempty (h : LinePath line path) : trim line ≠ [] := by
  obtain ⟨habs, ⟨front, hline, -⟩ | ⟨-, -, hline | ⟨front, hline⟩⟩⟩ := h
  · intro hnil
    rw [hnil] at hline
    have := congrArg List.length hline
    simp at this
  · rw [hline]
    rintro rfl
    cases habs
  · rw [hline]
    simp

/-- **`parse_cgroup_v2_path_line` finds the path of a line.** -/
theorem parse_eq_some_iff (line path : Text) :
    parseCgroupV2PathLine line = some path ↔ LinePath line path := by
  by_cases hnil : trim line = []
  · refine ⟨fun h => ?_, fun h => absurd hnil (linePath_nonempty h)⟩
    rw [parseCgroupV2PathLine, if_pos hnil] at h
    cases h
  · rw [parseCgroupV2PathLine, if_neg hnil]
    simp only
    cases hafter : (afterOnce "::".toList (trim line)).filter fun path => path.head? == some '/' with
    | some q =>
      -- a path after `::`, and there is no second first `::`
      obtain ⟨hq, habs⟩ := Option.filter_eq_some_iff.mp hafter
      have habs : q.head? = some '/' := by simpa using habs
      simp only [Option.some.injEq]
      constructor
      · rintro rfl
        exact ⟨habs, Or.inl ((afterOnce_colons _ _).mp hq)⟩
      · rintro ⟨-, hcolons | ⟨hnone, -⟩⟩
        · have hpath := (afterOnce_colons _ _).mpr hcolons
          rw [hq] at hpath
          exact Option.some.inj hpath
        · exact absurd ((afterOnce_colons _ _).mp hq) (hnone q habs)
    | none =>
      have hnone : ∀ q, Absolute q → ¬ AfterColons (trim line) q := by
        intro q habs hcolons
        have hq := (afterOnce_colons _ _).mpr hcolons
        rw [Option.filter_eq_none_iff] at hafter
        exact hafter q hq (by rw [habs]; rfl)
      simp only
      constructor
      · intro h
        split at h
        · rename_i habs
          obtain rfl := Option.some.inj h
          exact ⟨habs, Or.inr ⟨hnone, (rsplitNext_eq_iff _ _).mp rfl⟩⟩
        · cases h
      · rintro ⟨habs, hcolons | ⟨-, hlast⟩⟩
        · exact absurd hcolons (hnone path habs)
        · rw [(rsplitNext_eq_iff _ _).mpr hlast]
          exact if_pos habs

/-! ## The first line with a path -/

theorem findSome_eq_some_iff (lines : List Text) (p : Text) :
    lines.findSome? parseCgroupV2PathLine = some p ↔
      ∃ before line after, lines = before ++ line :: after ∧ (∀ x ∈ before, ∀ q, ¬ LinePath x q) ∧
        LinePath line p := by
  rw [List.findSome?_eq_some_iff]
  refine exists_congr fun before => exists_congr fun line => exists_congr fun after => ?_
  rw [parse_eq_some_iff]
  refine and_congr_right fun _ => ⟨fun ⟨hline, hbefore⟩ => ⟨fun x hx q hq => ?_, hline⟩,
    fun ⟨hbefore, hline⟩ => ⟨hline, fun x hx => ?_⟩⟩
  · have := hbefore x hx
    rw [(parse_eq_some_iff x q).mpr hq] at this
    cases this
  · refine Option.eq_none_iff_forall_ne_some.mpr fun q hq => ?_
    exact hbefore x hx q ((parse_eq_some_iff x q).mp hq)

theorem undisturbed_iff (lines : List Text) (p : Text) :
    Undisturbed lines p ↔ ∀ q, lines.findSome? parseCgroupV2PathLine = some q → q = p := by
  constructor
  · intro h q hq
    obtain ⟨before, line, after, hlines, hbefore, hline⟩ := (findSome_eq_some_iff lines q).mp hq
    exact h before line after hlines hbefore q hline
  · intro h before line after hlines hbefore q hline
    exact h q ((findSome_eq_some_iff lines q).mpr ⟨before, line, after, hlines, hbefore, hline⟩)

/-- Neither end of a `0::` line is trimmed. -/
theorem trim_v2 (hp : Absolute p) (htrim : trim p = p) :
    trim ("0::".toList ++ p) = "0::".toList ++ p := by
  have hfront : p.dropWhile isWhitespace = p := by
    cases p with
    | nil => rfl
    | cons c p =>
      obtain rfl := Option.some.inj hp
      exact List.dropWhile_cons_of_neg (by decide)
  have hback : p.reverse.dropWhile isWhitespace = p.reverse := by
    rw [trim, hfront] at htrim
    have := congrArg List.reverse htrim
    rwa [List.reverse_reverse] at this
  cases hrev : p.reverse with
  | nil =>
    rw [List.reverse_eq_nil_iff] at hrev
    rw [hrev] at hp
    cases hp
  | cons c rest =>
    rw [hrev] at hback
    have hc : ¬ isWhitespace c = true := by
      intro hws
      rw [List.dropWhile_cons_of_pos hws] at hback
      have := (List.dropWhile_sublist isWhitespace (l := rest)).length_le
      rw [hback, List.length_cons] at this
      omega
    have hdrop : ("0::".toList ++ p).dropWhile isWhitespace = "0::".toList ++ p :=
      List.dropWhile_cons_of_neg (by decide)
    rw [trim, hdrop, List.reverse_append, hrev, List.cons_append, List.dropWhile_cons_of_neg hc,
      ← List.cons_append, ← hrev, ← List.reverse_append, List.reverse_reverse]

/-- The path of a `0::` line. -/
theorem linePath_v2 (hp : Absolute p) (htrim : trim p = p) : LinePath ("0::".toList ++ p) p := by
  refine ⟨hp, Or.inl ?_⟩
  rw [trim_v2 hp htrim]
  refine ⟨['0'], rfl, fun i hi => ?_⟩
  obtain rfl : i = 0 := by simpa using hi
  intro h
  have := (List.cons_prefix_cons.mp h).1
  exact absurd this (by decide)

/-- **The `0::` line decides exactly if no line before it says otherwise.** -/
theorem findSome_v2_iff {before after : List Text} (hp : Absolute p) (htrim : trim p = p) :
    (before ++ ("0::".toList ++ p) :: after).findSome? parseCgroupV2PathLine = some p ↔
      Undisturbed before p := by
  rw [undisturbed_iff, List.findSome?_append, List.findSome?_cons,
    (parse_eq_some_iff _ _).mpr (linePath_v2 hp htrim)]
  cases before.findSome? parseCgroupV2PathLine with
  | none => simp
  | some q => simp

/-! ## The bytes of the file -/

/-- One `read` and `from_utf8`, on bytes and on characters. -/
theorem fromUtf8_take : ∀ (n : Nat) (s : Text), fromUtf8 ((utf8 s).take n) = readText n s
  | n, [] => by
    cases n <;> exact fromUtf8_eq_some_iff.mpr rfl
  | 0, c :: s => by
    rw [List.take_zero]
    exact fromUtf8_eq_some_iff.mpr rfl
  | n + 1, c :: s => by
    have hread : readText (n + 1) (c :: s) = if c.utf8Size ≤ n + 1 then
        (readText (n + 1 - c.utf8Size) s).map (c :: ·) else none := rfl
    rw [hread, utf8_cons]
    by_cases hfits : c.utf8Size ≤ n + 1
    · rw [if_pos hfits, List.take_append, String.length_utf8EncodeChar,
        List.take_of_length_le (by rwa [String.length_utf8EncodeChar]), fromUtf8_encode_append,
        fromUtf8_take]
    · have hcut : (String.utf8EncodeChar c ++ utf8 s).take (n + 1) =
          (String.utf8EncodeChar c).take (n + 1) := by
        refine List.take_append_of_le_length ?_
        rw [String.length_utf8EncodeChar]
        omega
      rw [if_neg hfits, hcut]
      exact fromUtf8_cut (Nat.succ_pos n) (by omega)

/-- **`cgroupPathFromPid` is `procPath` of the bytes**, as a path. -/
theorem cgroupPathFromPid_eq (contents : Text) :
    cgroupPathFromPid contents = (procPath (utf8 contents)).map pathFromText := by
  unfold cgroupPathFromPid procPath
  rw [fromUtf8_take]
  rcases readText 1024 contents with _ | _ | ⟨c, text⟩ <;> rfl

theorem procPath_eq_some_iff (file : List UInt8) (p : Text) :
    procPath file = some p ↔ ∃ text, file.take 1024 = utf8 text ∧
      (text.splitOn '\n').findSome? parseCgroupV2PathLine = some p := by
  unfold procPath
  constructor
  · intro h
    split at h
    · cases h
    · cases h
    · rename_i text _ hread
      exact ⟨text, fromUtf8_eq_some_iff.mp hread, h⟩
  · rintro ⟨text, htext, hfind⟩
    rw [fromUtf8_eq_some_iff.mpr htext]
    cases text with
    | nil => cases hfind
    | cons c text => exact hfind

/-- **When the v2 path wins.** Of a file with a line `0::<p>` among the bytes read, the path `p` is
returned exactly if these bytes are UTF-8 and the first line before it that has a path, if there is
one, has the path `p` as well. -/
theorem v2_path_wins_iff (file : List UInt8) {p : Text} (hp : Absolute p) (htrim : trim p = p)
    (hline : utf8 ("0::".toList ++ p) ∈ (file.take 1024).splitOn 10) :
    procPath file = some p ↔ ∃ text before after, file.take 1024 = utf8 text ∧
      text.splitOn '\n' = before ++ ("0::".toList ++ p) :: after ∧ Undisturbed before p := by
  rw [procPath_eq_some_iff]
  constructor
  · rintro ⟨text, htext, hfind⟩
    have hmem : "0::".toList ++ p ∈ text.splitOn '\n' := by
      rw [htext, utf8_lines] at hline
      obtain ⟨line, hmem, heq⟩ := List.mem_map.mp hline
      exact utf8_injective heq ▸ hmem
    obtain ⟨before, after, hlines⟩ := List.append_of_mem hmem
    rw [hlines] at hfind
    exact ⟨text, before, after, htext, hlines, (findSome_v2_iff hp htrim).mp hfind⟩
  · rintro ⟨text, before, after, htext, hlines, hfree⟩
    refine ⟨text, htext, ?_⟩
    rw [hlines]
    exact (findSome_v2_iff hp htrim).mpr hfree

/-- The `0::` line first, then a line of v1. -/
theorem v2_path_wins_first :
    procPath (utf8 "0::/system.slice\n1:name=systemd:/user.slice\n".toList) =
      some "/system.slice".toList := by
  have hlines : "0::/system.slice\n1:name=systemd:/user.slice\n".toList.splitOn '\n' =
      [] ++ ("0::".toList ++ "/system.slice".toList) ::
        ["1:name=systemd:/user.slice".toList, []] := by decide
  have htake : (utf8 "0::/system.slice\n1:name=systemd:/user.slice\n".toList).take 1024 =
      utf8 "0::/system.slice\n1:name=systemd:/user.slice\n".toList := by decide
  refine (v2_path_wins_iff _ (by rfl) (by decide) ?_).mpr ⟨_, _, _, htake, hlines, ?_⟩
  · rw [htake, utf8_lines, hlines]
    exact List.mem_map_of_mem List.mem_cons_self
  · intro before line after h
    simp at h

/-- **A line of v1 wins over the v2 line behind it.** -/
theorem v1_path_wins :
    utf8 ("0::".toList ++ "/system.slice".toList) ∈
        ((utf8 "12:memory:/user.slice\n0::/system.slice\n".toList).take 1024).splitOn 10 ∧
      procPath (utf8 "12:memory:/user.slice\n0::/system.slice\n".toList) =
        some "/user.slice".toList ∧
      procPath (utf8 "12:memory:/user.slice\n0::/system.slice\n".toList) ≠
        some "/system.slice".toList := by
  have htake : (utf8 "12:memory:/user.slice\n0::/system.slice\n".toList).take 1024 =
      utf8 "12:memory:/user.slice\n0::/system.slice\n".toList := by decide
  have hpath : procPath (utf8 "12:memory:/user.slice\n0::/system.slice\n".toList) =
      some "/user.slice".toList :=
    (procPath_eq_some_iff _ _).mpr ⟨_, htake, by decide⟩
  refine ⟨by rw [htake]; decide, hpath, ?_⟩
  rw [hpath]
  decide

end Statix.Attribution
