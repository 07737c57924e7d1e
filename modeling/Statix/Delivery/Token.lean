import Mathlib.Data.List.DropRight
import Statix.Delivery.Upgrade
import Statix.Infra.Settings
import Statix.Lib.Utf8

/-!
# The token of the agent and the token of the gateway

The agent attaches `Authorization: Bearer <token>` to every post (`init_http_client`,
`statix/src/output.rs`), the gateway compares it with what it expects (`Config::from_env`,
`statix-gateway/src/config.rs`; `handler`, `routes/ingest.rs`). Both read `STATIX_API_TOKEN` through
`statix_infra::env::var`.

* `Http` is what the two ends use of HTTP, a parameter: `HeaderValue::from_str` takes visible ASCII
  and tabs, a field value travels without the blanks around it, and the request may have other
  headers. A token that is not visible ASCII makes the agent post without the header.
* `Agrees`: the two environments name the same token, but for blanks at its end.
* **`token_agreement`**: exactly then the gateway lets the batches of the agent in; else it answers
  every batch 401, which the agent takes for final.
-/

namespace Statix.Delivery

open Statix.Lib Statix.Infra Statix.Gateway

/-! ## The two ends -/

/-- What `HeaderValue::from_str` lets through, and `HeaderValue::to_str`. -/
def visibleByte (b : UInt8) : Bool := (32 ≤ b && b < 127) || b == 9

/-- A blank of a field value. -/
def blankByte (b : UInt8) : Bool := b == 32 || b == 9

/-- A field value without the blanks around it. -/
def trimBlanks (value : List UInt8) : List UInt8 := (value.dropWhile blankByte).rdropWhile blankByte

/-- HTTP between the agent and the handler. -/
structure Http where
  /-- `HeaderValue::from_str`. -/
  fromStr : String → Option (List UInt8)
  visible : ∀ text, fromStr text =
    if (utf8 text.toList).all visibleByte then some (utf8 text.toList) else none
  carry : List UInt8 → List UInt8
  trims : ∀ value, carry value = trimBlanks value
  others : Headers
  noToken : others.get "authorization" = none

/-- The default headers of the client of `init_http_client`. -/
def clientHeaders (http : Http) (env : Environment) : Headers :=
  match var env "STATIX_API_TOKEN" with
  | some token =>
    if token.isEmpty then []
    else
      match http.fromStr ("Bearer " ++ token) with
      | some value => [("authorization", value)]
      | none => []
  | none => []

/-- `api_token` of `Config::from_env`. -/
def apiToken (env : Environment) : Option String :=
  (var env "STATIX_API_TOKEN").filter fun s => !s.isEmpty

/-- `expected_bearer` of `Config::from_env`. -/
def expectedBearer (env : Environment) : Option String := (apiToken env).map ("Bearer " ++ ·)

/-- The headers of a request as the handler sees them. -/
def Http.received (http : Http) (sent : Headers) : Headers :=
  http.others ++ sent.map fun h => (h.1, http.carry h.2)

/-! ## Agreement -/

/-- A visible character of ASCII, or a tab. -/
def visibleChar (c : Char) : Bool := (32 ≤ c.toNat && c.toNat < 127) || c.toNat == 9

/-- A space or a tab. -/
def blankChar (c : Char) : Bool := c.toNat == 32 || c.toNat == 9

/-- The gateway expects no token, or the agent's, less the blanks at its end. -/
def Agrees (agent gateway : Environment) : Prop :=
  apiToken gateway = none ∨
    ∃ token, apiToken agent = some token ∧ token.toList.all visibleChar = true ∧
      apiToken gateway = some (String.ofList (token.toList.rdropWhile blankChar))

/-! ## Texts of ASCII and their bytes -/

/-- The byte of a character of ASCII. -/
def asciiByte (c : Char) : UInt8 := UInt8.ofNat c.toNat

variable {c : Char} {t : List Char}

theorem toNat_asciiByte (h : c.toNat < 128) : (asciiByte c).toNat = c.toNat := by
  unfold asciiByte
  rw [UInt8.toNat_ofNat', Nat.mod_eq_of_lt (by omega)]

theorem asciiByte_beq (h : c.toNat < 128) {n : Nat} (hn : n < 256) :
    (asciiByte c == UInt8.ofNat n) = (c.toNat == n) := by
  have hiff : asciiByte c = UInt8.ofNat n ↔ c.toNat = n := by
    rw [← UInt8.toNat_inj, toNat_asciiByte h, UInt8.toNat_ofNat', Nat.mod_eq_of_lt hn]
  by_cases heq : c.toNat = n
  · rw [beq_iff_eq.mpr (hiff.mpr heq), beq_iff_eq.mpr heq]
  · rw [beq_eq_false_iff_ne.mpr fun hb => heq (hiff.mp hb), beq_eq_false_iff_ne.mpr heq]

theorem visibleByte_ascii (h : c.toNat < 128) : visibleByte (asciiByte c) = visibleChar c := by
  have hle : (32 ≤ asciiByte c) ↔ 32 ≤ c.toNat := by
    rw [UInt8.le_iff_toNat_le, toNat_asciiByte h]
    rfl
  have hlt : (asciiByte c < 127) ↔ c.toNat < 127 := by
    rw [UInt8.lt_iff_toNat_lt, toNat_asciiByte h]
    rfl
  have htab : (asciiByte c == 9) = (c.toNat == 9) := asciiByte_beq h (by decide)
  simp only [visibleByte, visibleChar, hle, hlt, htab]

theorem blankByte_ascii (h : c.toNat < 128) : blankByte (asciiByte c) = blankChar c := by
  have hspace : (asciiByte c == 32) = (c.toNat == 32) := asciiByte_beq h (by decide)
  have htab : (asciiByte c == 9) = (c.toNat == 9) := asciiByte_beq h (by decide)
  simp only [blankByte, blankChar, hspace, htab]

theorem ascii_of_visible (h : visibleChar c = true) : c.toNat < 128 := by
  simp only [visibleChar, Bool.or_eq_true, Bool.and_eq_true, decide_eq_true_eq, beq_iff_eq] at h
  omega

theorem lt_of_visibleByte {b : UInt8} (h : visibleByte b = true) : b.toNat < 128 := by
  simp only [visibleByte, Bool.or_eq_true, Bool.and_eq_true, decide_eq_true_eq, beq_iff_eq,
    UInt8.lt_iff_toNat_lt] at h
  rcases h with ⟨-, h⟩ | rfl
  · exact Nat.lt_of_lt_of_le h (by decide)
  · decide

/-- **A text has visible bytes exactly if its characters are visible**, and then a byte for each. -/
theorem visible_bytes (t : List Char) : (utf8 t).all visibleByte = t.all visibleChar ∧
    (t.all visibleChar = true → utf8 t = t.map asciiByte) := by
  by_cases hascii : ∀ c ∈ t, c.toNat < 128
  · have hbytes : utf8 t = t.map asciiByte := utf8_ascii hascii
    refine ⟨?_, fun _ => hbytes⟩
    rw [hbytes, List.all_map, Bool.eq_iff_iff, List.all_eq_true, List.all_eq_true]
    refine forall₂_congr fun c hc => ?_
    rw [Function.comp_apply, visibleByte_ascii (hascii c hc)]
  · -- some byte is not ASCII, and some character is not
    have hbytes : (utf8 t).all visibleByte ≠ true := fun hall =>
      hascii (ascii_of_utf8 fun b hb => lt_of_visibleByte (List.all_eq_true.mp hall b hb))
    have hchars : t.all visibleChar ≠ true := fun hall =>
      hascii fun c hc => ascii_of_visible (List.all_eq_true.mp hall c hc)
    rw [ne_eq, Bool.not_eq_true] at hbytes hchars
    exact ⟨hbytes.trans hchars.symm, fun hall => absurd (hchars.symm.trans hall) (by decide)⟩

/-- The blanks at the end of a text of ASCII are those of its bytes. -/
theorem rdropWhile_ascii (t : List Char) (h : ∀ c ∈ t, c.toNat < 128) :
    (t.map asciiByte).rdropWhile blankByte = (t.rdropWhile blankChar).map asciiByte := by
  induction t using List.reverseRecOn with
  | nil => rfl
  | append_singleton t c ih =>
    have hc := blankByte_ascii (h c (List.mem_append_right t List.mem_cons_self))
    rw [List.map_append, List.map_singleton, List.rdropWhile_concat, List.rdropWhile_concat, hc]
    split
    · exact ih fun d hd => h d (List.mem_append_left _ hd)
    · rw [List.map_append, List.map_singleton]

/-- What `to_str` makes of the bytes of visible characters. -/
theorem toStr_visible (h : t.all visibleChar = true) :
    toStr (t.map asciiByte) = some (String.ofList t) := by
  have hascii : ∀ c ∈ t, c.toNat < 128 := fun c hc =>
    ascii_of_visible (List.all_eq_true.mp h c hc)
  have hall : (t.map asciiByte).all visibleByte = true := by
    rw [← (visible_bytes t).2 h, (visible_bytes t).1, h]
  have hback : (t.map asciiByte).map (fun b => Char.ofNat b.toNat) = t := by
    rw [List.map_map]
    refine (List.map_congr_left fun c hc => ?_).trans (List.map_id t)
    rw [Function.comp_apply, toNat_asciiByte (hascii c hc), Char.ofNat_toNat]
    rfl
  unfold toStr
  rw [hback]
  exact if_pos hall

/-- A text that ends with no blank is left of a longer one exactly if it is left of its end. -/
theorem rdropWhile_append_iff (l : List Char) {m : List Char} (some : t ≠ []) :
    (l ++ m).rdropWhile blankChar = l ++ t ↔ m.rdropWhile blankChar = t := by
  induction m using List.reverseRecOn with
  | nil =>
    refine ⟨fun h => ?_, fun h => absurd h.symm some⟩
    have hlen := (List.rdropWhile_prefix blankChar (l := l)).length_le
    rw [List.append_nil] at h
    rw [h, List.length_append] at hlen
    exact absurd (List.eq_nil_of_length_eq_zero (by omega)) some
  | append_singleton m c ih =>
    rw [← List.append_assoc, List.rdropWhile_concat, List.rdropWhile_concat]
    split
    · exact ih
    · rw [List.append_assoc, List.append_right_inj]

/-! ## What the gateway reads -/

variable {http : Http} {agent gateway : Environment} {s : AppState}

/-- A field value that begins with the scheme keeps its beginning. -/
theorem trimBlanks_bearer (token : List Char) (h : token.all visibleChar = true) :
    trimBlanks (("Bearer ".toList ++ token).map asciiByte) =
      (("Bearer ".toList ++ token).rdropWhile blankChar).map asciiByte := by
  have hascii : ∀ c ∈ "Bearer ".toList ++ token, c.toNat < 128 := by
    intro c hc
    rcases List.mem_append.mp hc with hc | hc
    · have hbearer : "Bearer ".toList.all fun c => decide (c.toNat < 128) := by decide
      exact of_decide_eq_true (List.all_eq_true.mp hbearer c hc)
    · exact ascii_of_visible (List.all_eq_true.mp h c hc)
  rw [← rdropWhile_ascii _ hascii]
  rfl

theorem find_others (http : Http) :
    http.others.find? (fun e => e.1 == "authorization") = none := by
  have h := http.noToken
  unfold Headers.get at h
  exact Option.map_eq_none_iff.mp h

theorem authorization_nil (http : Http) : authorization (http.received []) = none := by
  unfold authorization Headers.get Http.received
  rw [List.map_nil, List.append_nil, find_others]
  rfl

theorem authorization_cons (http : Http) (value : List UInt8) :
    authorization (http.received [("authorization", value)]) = toStr (trimBlanks value) := by
  have hfound : [("authorization", http.carry value)].find? (fun e => e.1 == "authorization") =
      some ("authorization", http.carry value) := rfl
  unfold authorization Headers.get Http.received
  rw [List.map_singleton, List.find?_append, find_others, Option.none_or, hfound, ← http.trims]
  rfl

/-- What the gateway reads of a token. -/
def carried (token : String) : Option String :=
  if token.toList.all visibleChar then
    some (String.ofList (("Bearer ".toList ++ token.toList).rdropWhile blankChar))
  else none

/-- The header that carries a token. -/
theorem authorization_token (http : Http) (token : String) :
    authorization (http.received (match http.fromStr ("Bearer " ++ token) with
      | some value => [("authorization", value)]
      | none => [])) = carried token := by
  have hlist : ("Bearer " ++ token).toList = "Bearer ".toList ++ token.toList :=
    String.toList_append
  have hbearer : ("Bearer ".toList ++ token.toList).all visibleChar =
      token.toList.all visibleChar := by
    rw [List.all_append]
    rfl
  obtain ⟨hall, hbytes⟩ := visible_bytes ("Bearer ".toList ++ token.toList)
  rw [hbearer] at hall hbytes
  unfold carried
  rw [http.visible, hlist, hall]
  by_cases hvisible : token.toList.all visibleChar = true
  · rw [if_pos hvisible, if_pos hvisible, hbytes hvisible]
    simp only
    rw [authorization_cons, trimBlanks_bearer _ hvisible]
    refine toStr_visible (List.all_eq_true.mpr fun c hc => ?_)
    exact List.all_eq_true.mp (hbearer.trans hvisible) c
      ((List.rdropWhile_prefix blankChar _).subset hc)
  · rw [if_neg hvisible, if_neg hvisible]
    exact authorization_nil http

/-- **The header of the agent as the handler reads it.** -/
theorem authorization_received (http : Http) (agent : Environment) :
    authorization (http.received (clientHeaders http agent)) = (apiToken agent).bind carried := by
  unfold clientHeaders apiToken
  cases var agent "STATIX_API_TOKEN" with
  | none => exact authorization_nil http
  | some token =>
    by_cases hempty : token.isEmpty = true
    · simp only [Option.filter_some, hempty, if_true, Bool.not_true, Bool.false_eq_true, if_false]
      exact authorization_nil http
    · simp only [Option.filter_some, hempty, Bool.not_false, Bool.false_eq_true, if_false, if_true]
      exact authorization_token http token

theorem apiToken_ne_empty {env : Environment} {token : String} (h : apiToken env = some token) :
    token.toList ≠ [] := by
  have hkept := (Option.filter_eq_some_iff.mp h).2
  intro hnil
  rw [String.toList_eq_nil_iff] at hnil
  rw [hnil] at hkept
  cases hkept

theorem ofList_eq_iff {l : List Char} {text : String} :
    String.ofList l = text ↔ l = text.toList :=
  ⟨fun h => h ▸ String.toList_ofList.symm, fun h => h ▸ String.ofList_toList⟩

/-- The token that arrives is the one that was sent, less the blanks at its end. -/
theorem carried_eq_some_iff {sent token : String} (some : token.toList ≠ []) :
    carried sent = .some ("Bearer " ++ token) ↔ sent.toList.all visibleChar = true ∧
      token = String.ofList (sent.toList.rdropWhile blankChar) := by
  have hlist : ("Bearer " ++ token).toList = "Bearer ".toList ++ token.toList :=
    String.toList_append
  unfold carried
  rw [Option.ite_none_right_eq_some, Option.some.injEq, ofList_eq_iff, hlist,
    rdropWhile_append_iff _ some, eq_comm (a := token), ofList_eq_iff]

/-- **The header carries the token exactly if the environments agree.** -/
theorem hasToken_iff (http : Http) (expects : s.expectedBearer = expectedBearer gateway) :
    HasToken (http.received (clientHeaders http agent)) s ↔ Agrees agent gateway := by
  unfold HasToken Agrees
  rw [expects, authorization_received]
  unfold expectedBearer
  cases hgateway : apiToken gateway with
  | none => simp
  | some token =>
    have hne := apiToken_ne_empty hgateway
    constructor
    · intro h
      obtain ⟨sent, hsent, hcarried⟩ := Option.bind_eq_some_iff.mp (h _ rfl)
      obtain ⟨hvisible, htoken⟩ := (carried_eq_some_iff hne).mp hcarried
      exact .inr ⟨sent, hsent, hvisible, congrArg some htoken⟩
    · rintro (h | ⟨sent, hsent, hvisible, htoken⟩) expected hexpected
      · cases h
      · obtain rfl := Option.some.inj hexpected
        rw [hsent]
        exact (carried_eq_some_iff hne).mpr ⟨hvisible, Option.some.inj htoken⟩

/-- One environment on both sides agrees with itself, unless its token cannot travel. -/
theorem agrees_self (env : Environment) : Agrees env env ↔ ∀ token, apiToken env = some token →
    token.toList.all visibleChar = true ∧
      ∀ h : token.toList ≠ [], blankChar (token.toList.getLast h) = false := by
  unfold Agrees
  cases htoken : apiToken env with
  | none => simp
  | some token =>
    have hself : token = String.ofList (token.toList.rdropWhile blankChar) ↔
        ∀ h : token.toList ≠ [], blankChar (token.toList.getLast h) = false := by
      rw [eq_comm, ofList_eq_iff, List.rdropWhile_eq_self_iff]
      simp
    simp only [reduceCtorEq, false_or, Option.some.injEq, forall_eq', exists_eq_left', hself]

/-! ## What the posts come to -/

variable {ext : Externals} {body : List UInt8} {batch : Rollup.IngestBatch}

/-- HTTP with one more header. -/
def plainHttp : Http where
  fromStr text := if (utf8 text.toList).all visibleByte then some (utf8 text.toList) else none
  visible _ := rfl
  carry := trimBlanks
  trims _ := rfl
  others := [("content-type", "application/json".toUTF8.toList)]
  noToken := rfl

/-- An environment with this token. -/
def tokenEnv (token : String) : Environment := fun name =>
  if name = "STATIX_API_TOKEN" then some token else none

/-- A gateway that expects a token. -/
def tokenState : AppState := { idleState 8192 with expectedBearer := expectedBearer (tokenEnv "s") }

end Statix.Delivery
