import Mathlib.Data.Nat.Digits.Lemmas
import Statix.Lib.Files
import Statix.Lib.LittleEndian

/-!
# The segment and frame codec

Model of `statix/src/wal/segment.rs`: segment names, the 16-byte segment header, the frame
header, and `read_frame_at`.

```text
segment file:   [16B segment header] [frame] [frame] ...
segment header: [8B magic "STATXWAL"][u32 format_version][u32 reserved]
frame:          [u32 payload_len][u32 crc32(payload)][u64 batch_seq][payload bytes]
```

* Bytes are `List UInt8`, an open file read from the start is its byte list, and a file offset is
  a `Nat`. `read_full_or_eof` retries short and interrupted reads, so over a byte list it is one
  `take`.
* A path is the file name inside the WAL directory, as a list of characters.
* `crc32fast::hash` is a dependency, so it is the operation of a class and nothing is assumed of
  it: the codec only ever compares a hash with a hash of the same bytes.

Results:
* `readFrameAt_encode`: a frame written at a boundary is read back unaltered, whatever follows it.
* `readFrameAt_end`: at the end of the file the reader answers `atEnd`.
* `readFrameAt_decode`: conversely, the bytes of a frame that was read are its encoding.
* `segmentPath_inj`: different sequence numbers have different file names.
-/

namespace Statix.Wal

open Statix.Lib

/-- A byte string. -/
abbrev Bytes := List UInt8

/-- A file name inside the WAL directory. -/
abbrev FileName := List Char

/-- `crc32fast::hash`. -/
class Crc32 where
  hash : Bytes → UInt32

/-- One bit of the reflected CRC-32 register. -/
def crc32Shift (c : UInt32) : UInt32 :=
  if c &&& 1 = 1 then (c >>> 1) ^^^ 0xEDB88320 else c >>> 1

/-- CRC-32 (IEEE 802.3), the checksum `crc32fast` computes. -/
@[reducible] def crc32Ieee : Crc32 where
  hash bs := ~~~ bs.foldl (fun c b => crc32Shift^[8] (c ^^^ b.toUInt32)) 0xFFFFFFFF

-- the check value of the string "123456789"
example : crc32Ieee.hash [49, 50, 51, 52, 53, 54, 55, 56, 57] = 0xCBF43926 := by decide +kernel

/-! ## Constants -/

/-- `SEGMENT_MAGIC`: `STATXWAL`. -/
def segmentMagic : Bytes := [0x53, 0x54, 0x41, 0x54, 0x58, 0x57, 0x41, 0x4c]

/-- `FORMAT_VERSION`. -/
def formatVersion : Nat := 1

/-- `SEGMENT_HEADER_LEN`. -/
def segmentHeaderLen : Nat := 16

/-- `FRAME_HEADER_LEN`. -/
def frameHeaderLen : Nat := 16

/-- `MAX_FRAME_PAYLOAD`. -/
def maxFramePayload : Nat := 16 * 1024 * 1024

/-! ## Segment names -/

/-- `SEGMENT_PREFIX`. -/
def segmentPrefix : FileName := ['s', 'e', 'g', '-']

/-- `SEGMENT_SUFFIX`. -/
def segmentSuffix : FileName := ['.', 'w', 'a', 'l']

/-- The decimal digits of `n`, least significant first, padded to at least `w` of them: the
reverse of `{n:0w}`. -/
def digitsRev : Nat → Nat → List Char
  | 0, n => if n = 0 then [] else (Nat.digits 10 n).map Nat.digitChar
  | w + 1, n => Nat.digitChar (n % 10) :: digitsRev w (n / 10)

/-- `segment_path`: `seg-<seq>.wal`, the number zero-padded to 20 digits. -/
def segmentPath (seq : Nat) : FileName :=
  segmentPrefix ++ ((digitsRev 20 seq).reverse ++ segmentSuffix)

/-- The value of a list of decimal digits, least significant first. -/
def digitsVal (ds : List Char) : Nat :=
  ds.foldr (fun c n => (c.toNat - 48) + 10 * n) 0

/-- `str::parse::<u64>`: an optional `+`, at least one digit, digits only, no overflow. -/
def parseU64 (cs : List Char) : Option Nat :=
  let ds := match cs with
    | '+' :: rest => rest
    | _ => cs
  if ds ≠ [] ∧ ds.all Char.isDigit = true ∧ digitsVal ds.reverse < 2 ^ 64 then
    some (digitsVal ds.reverse)
  else none

/-- `strip_prefix`. -/
def stripPrefix (pre cs : List Char) : Option (List Char) :=
  if cs.take pre.length = pre then some (cs.drop pre.length) else none

/-- `strip_suffix`. -/
def stripSuffix (suf cs : List Char) : Option (List Char) :=
  (stripPrefix suf.reverse cs.reverse).map List.reverse

/-- `parse_segment_seq`. -/
def parseSegmentSeq (name : FileName) : Option Nat := do
  let rest ← stripPrefix segmentPrefix name
  let digits ← stripSuffix segmentSuffix rest
  parseU64 digits

/-! ## Headers -/

/-- `encode_segment_header`: magic, version, four reserved zero bytes. -/
def encodeSegmentHeader : Bytes := segmentMagic ++ toLe 4 formatVersion ++ [0, 0, 0, 0]

/-- `validate_segment_header`. -/
def validateSegmentHeader (buf : Bytes) : Except String Unit :=
  if buf.length < segmentHeaderLen then .error "segment header truncated"
  else if buf.take 8 ≠ segmentMagic then .error "bad segment magic"
  else
    let version := ofLe ((buf.drop 8).take 4)
    if version ≠ formatVersion then .error s!"unsupported WAL format version {version}"
    else .ok ()

/-- `frame_len_on_disk`. -/
def frameLenOnDisk (payloadLen : Nat) : Nat := frameHeaderLen + payloadLen

/-- A frame decoded during recovery or replay (`DecodedFrame`). -/
structure DecodedFrame where
  batchSeq : UInt64
  payload : Bytes
  deriving DecidableEq

/-- Outcome of decoding one frame (`FrameRead`). -/
inductive FrameRead where
  /-- A valid frame and the offset just past it. -/
  | frame (f : DecodedFrame) (next : Nat)
  /-- Clean end of data, or a torn header or payload. -/
  | atEnd
  /-- Length or CRC check failed. -/
  | corrupt
  deriving DecidableEq

/-- `ReadStatus` of `read_full_or_eof`, with the bytes read. -/
inductive ReadStatus where
  | full (buf : Bytes)
  | short
  | eof

/-- `read_full_or_eof` of an `n`-byte buffer from offset `pos`. -/
def readFullOrEof (file : Bytes) (pos n : Nat) : ReadStatus :=
  let buf := (file.drop pos).take n
  if buf.length = n then .full buf else if buf = [] then .eof else .short

section Frames

variable [Crc32]

/-- `encode_frame_header`. -/
def encodeFrameHeader (payload : Bytes) (batchSeq : UInt64) : Bytes :=
  toLe 4 payload.length ++ toLe 4 (Crc32.hash payload).toNat ++ toLe 8 batchSeq.toNat

/-- `read_frame_at`. -/
def readFrameAt (file : Bytes) (offset : Nat) : FrameRead :=
  match readFullOrEof file offset frameHeaderLen with
  | .eof => .atEnd
  | .short => .atEnd
  | .full header =>
    let payloadLen := ofLe (header.take 4)
    let crcExpected := ofLe ((header.drop 4).take 4)
    let batchSeq := ofLe (header.drop 8)
    if payloadLen = 0 ∨ payloadLen > maxFramePayload then .corrupt
    else
      match readFullOrEof file (offset + frameHeaderLen) payloadLen with
      | .full payload =>
        if (Crc32.hash payload).toNat ≠ crcExpected then .corrupt
        else .frame ⟨UInt64.ofNat batchSeq, payload⟩ (offset + frameLenOnDisk payloadLen)
      | _ => .atEnd

/-- A frame as `append` writes it: header, then payload. -/
def encodeFrame (f : DecodedFrame) : Bytes := encodeFrameHeader f.payload f.batchSeq ++ f.payload

/-- Frames one after another. -/
def encodeFrames (fs : List DecodedFrame) : Bytes := fs.flatMap encodeFrame

end Frames

/-- The payload lengths the reader accepts: `1..=MAX_FRAME_PAYLOAD`. -/
def ValidPayload (p : Bytes) : Prop := 1 ≤ p.length ∧ p.length ≤ maxFramePayload

instance (p : Bytes) : Decidable (ValidPayload p) :=
  inferInstanceAs (Decidable (_ ∧ _))

/-! ## Names are one-to-one -/

theorem toNat_digitChar {d : Nat} (h : d < 10) : (Nat.digitChar d).toNat - 48 = d := by
  rw [Nat.toNat_digitChar_of_lt_ten h]
  omega

theorem digitsVal_map {ds : List Nat} (h : ∀ d ∈ ds, d < 10) :
    digitsVal (ds.map Nat.digitChar) = Nat.ofDigits 10 ds := by
  induction ds with
  | nil => rfl
  | cons d ds ih =>
    have ih' := ih fun x hx => h x (List.mem_cons_of_mem d hx)
    unfold digitsVal at ih' ⊢
    rw [List.map_cons, List.foldr_cons, ih', toNat_digitChar (h d List.mem_cons_self),
      Nat.ofDigits_cons]

theorem digitsVal_digitsRev : ∀ w n : Nat, digitsVal (digitsRev w n) = n
  | 0, n => by
    unfold digitsRev
    split
    · rename_i h
      rw [h]
      rfl
    · rw [digitsVal_map fun d hd => Nat.digits_lt_base (by omega) hd, Nat.ofDigits_digits]
  | w + 1, n => by
    have ih := digitsVal_digitsRev w (n / 10)
    unfold digitsVal at ih ⊢
    rw [digitsRev, List.foldr_cons, ih, toNat_digitChar (Nat.mod_lt n (by omega))]
    exact Nat.mod_add_div n 10

theorem isDigit_digitChar {d : Nat} (h : d < 10) : (Nat.digitChar d).isDigit = true := by
  interval_cases d <;> rfl

theorem isDigit_of_mem_digitsRev : ∀ {w n : Nat} {c : Char}, c ∈ digitsRev w n → c.isDigit = true
  | 0, n, c, h => by
    unfold digitsRev at h
    split at h
    · exact absurd h List.not_mem_nil
    · obtain ⟨d, hd, rfl⟩ := List.mem_map.mp h
      exact isDigit_digitChar (Nat.digits_lt_base (by omega) hd)
  | w + 1, n, c, h => by
    rw [digitsRev, List.mem_cons] at h
    rcases h with rfl | h
    · exact isDigit_digitChar (Nat.mod_lt n (by omega))
    · exact isDigit_of_mem_digitsRev h

@[simp] theorem segmentPath_inj {a b : Nat} : segmentPath a = segmentPath b ↔ a = b := by
  refine ⟨fun h => ?_, fun h => by rw [h]⟩
  have hd : digitsRev 20 a = digitsRev 20 b :=
    List.reverse_injective (List.append_cancel_right (List.append_cancel_left h))
  rw [← digitsVal_digitsRev 20 a, hd, digitsVal_digitsRev]

theorem segmentPath_ne {a b : Nat} (h : a < b) : segmentPath a ≠ segmentPath b := by
  rw [ne_eq, segmentPath_inj]
  exact Nat.ne_of_lt h

theorem stripPrefix_append (pre cs : List Char) : stripPrefix pre (pre ++ cs) = some cs := by
  unfold stripPrefix
  rw [List.take_left, if_pos rfl, List.drop_left]

theorem stripSuffix_append (suf cs : List Char) : stripSuffix suf (cs ++ suf) = some cs := by
  unfold stripSuffix
  rw [List.reverse_append, stripPrefix_append, Option.map_some, List.reverse_reverse]

theorem parseU64_lt {cs : List Char} {n : Nat} (h : parseU64 cs = some n) : n < 2 ^ 64 := by
  unfold parseU64 at h
  simp only [Option.ite_none_right_eq_some, Option.some.injEq] at h
  obtain ⟨⟨-, -, hlt⟩, rfl⟩ := h
  exact hlt

theorem parseSegmentSeq_lt {name : FileName} {seq : Nat} (h : parseSegmentSeq name = some seq) :
    seq < 2 ^ 64 := by
  unfold parseSegmentSeq at h
  simp only [Option.bind_eq_bind, Option.bind_eq_some_iff] at h
  obtain ⟨rest, -, digits, -, hp⟩ := h
  exact parseU64_lt hp

/-- **A segment's name parses back to its number.** -/
theorem parseSegmentSeq_segmentPath {seq : Nat} (h : seq < 2 ^ 64) :
    parseSegmentSeq (segmentPath seq) = some seq := by
  unfold parseSegmentSeq segmentPath
  rw [stripPrefix_append, Option.bind_eq_bind, Option.bind_some, stripSuffix_append,
    Option.bind_some]
  have hlast : ∃ c ds, (digitsRev 20 seq).reverse = c :: ds := by
    cases hc : (digitsRev 20 seq).reverse with
    | nil => exact absurd (List.reverse_eq_nil_iff.mp hc) (by simp [digitsRev])
    | cons c ds => exact ⟨c, ds, rfl⟩
  obtain ⟨c, ds, hcs⟩ := hlast
  have hall : ∀ x ∈ c :: ds, x.isDigit = true := fun x hx =>
    isDigit_of_mem_digitsRev (List.mem_reverse.mp (hcs ▸ hx))
  have hplus : c ≠ '+' := by
    rintro rfl
    exact absurd (hall '+' List.mem_cons_self) (by decide)
  have hrev : (c :: ds).reverse = digitsRev 20 seq := by rw [← hcs, List.reverse_reverse]
  have hmatch : (match c :: ds with | '+' :: rest => rest | _ => c :: ds) = c :: ds := by
    split
    · rename_i heq
      exact absurd (List.cons.inj heq).1 hplus
    · rfl
  unfold parseU64
  rw [hcs]
  simp only [hmatch, hrev, digitsVal_digitsRev]
  rw [if_pos ⟨List.cons_ne_nil c ds, List.all_eq_true.mpr hall, h⟩]

/-! ## Reading back what was written -/

@[simp] theorem length_encodeSegmentHeader : encodeSegmentHeader.length = segmentHeaderLen := rfl

theorem validateSegmentHeader_encode : validateSegmentHeader encodeSegmentHeader = .ok () := rfl

theorem readFullOrEof_full {pre buf post : Bytes} {pos n : Nat} (hp : pre.length = pos)
    (hn : buf.length = n) : readFullOrEof (pre ++ (buf ++ post)) pos n = .full buf := by
  subst hp hn
  unfold readFullOrEof
  rw [List.drop_left, List.take_left, if_pos rfl]

/-- What a full read returned. -/
theorem readFullOrEof_eq_full {file buf : Bytes} {pos n : Nat}
    (h : readFullOrEof file pos n = .full buf) :
    buf.length = n ∧ file.drop pos = buf ++ file.drop (pos + n) ∧
      (0 < n → pos + n ≤ file.length) := by
  unfold readFullOrEof at h
  simp only at h
  split at h
  · rename_i hl
    cases h
    refine ⟨hl, ?_, fun hn => ?_⟩
    · rw [← List.drop_drop, List.take_append_drop]
    · rw [List.length_take, List.length_drop] at hl
      omega
  · split at h <;> cases h

theorem frameLenOnDisk_pos (n : Nat) : 0 < frameLenOnDisk n := by
  unfold frameLenOnDisk frameHeaderLen
  omega

variable [Crc32]

@[simp] theorem length_encodeFrameHeader (p : Bytes) (q : UInt64) :
    (encodeFrameHeader p q).length = frameHeaderLen := by
  simp [encodeFrameHeader, frameHeaderLen]

@[simp] theorem length_encodeFrame (f : DecodedFrame) :
    (encodeFrame f).length = frameLenOnDisk f.payload.length := by
  simp [encodeFrame, frameLenOnDisk]

@[simp] theorem encodeFrames_nil : encodeFrames [] = [] := rfl

@[simp] theorem encodeFrames_cons (f : DecodedFrame) (fs : List DecodedFrame) :
    encodeFrames (f :: fs) = encodeFrame f ++ encodeFrames fs := rfl

theorem encodeFrames_append (fs gs : List DecodedFrame) :
    encodeFrames (fs ++ gs) = encodeFrames fs ++ encodeFrames gs := by
  simp [encodeFrames]

/-- Some first frames take no more bytes than all of them. -/
theorem length_encodeFrames_take (k : Nat) (fs : List DecodedFrame) :
    (encodeFrames (fs.take k)).length ≤ (encodeFrames fs).length := by
  conv_rhs => rw [← List.take_append_drop k fs, encodeFrames_append, List.length_append]
  exact Nat.le_add_right _ _

/-- The header fields of an encoded frame. -/
theorem encodeFrameHeader_fields {p : Bytes} (hp : ValidPayload p) (q : UInt64) :
    ofLe ((encodeFrameHeader p q).take 4) = p.length ∧
    ofLe (((encodeFrameHeader p q).drop 4).take 4) = (Crc32.hash p).toNat ∧
    ofLe ((encodeFrameHeader p q).drop 8) = q.toNat := by
  have hlen : p.length < 256 ^ 4 := by
    have := hp.2
    unfold maxFramePayload at this
    omega
  have h1 : (encodeFrameHeader p q).take 4 = toLe 4 p.length := by
    unfold encodeFrameHeader
    rw [List.append_assoc, List.take_left' (by simp)]
  have h2 : ((encodeFrameHeader p q).drop 4).take 4 = toLe 4 (Crc32.hash p).toNat := by
    unfold encodeFrameHeader
    rw [List.append_assoc, List.drop_left' (by simp), List.take_left' (by simp)]
  have h3 : (encodeFrameHeader p q).drop 8 = toLe 8 q.toNat := by
    unfold encodeFrameHeader
    rw [List.drop_left' (by simp)]
  rw [h1, h2, h3]
  exact ⟨ofLe_toLe hlen, ofLe_toLe (Crc32.hash p).toNat_lt, ofLe_toLe q.toNat_lt⟩

/-- **A frame is read back as it was written**, whatever precedes and follows it. -/
theorem readFrameAt_encode {f : DecodedFrame} (hf : ValidPayload f.payload) {pre post : Bytes}
    {offset : Nat} (hpre : pre.length = offset) :
    readFrameAt (pre ++ (encodeFrame f ++ post)) offset =
      .frame f (offset + frameLenOnDisk f.payload.length) := by
  obtain ⟨hlen, hcrc, hseq⟩ := encodeFrameHeader_fields hf f.batchSeq
  have hhdr : readFullOrEof (pre ++ (encodeFrame f ++ post)) offset frameHeaderLen =
      .full (encodeFrameHeader f.payload f.batchSeq) := by
    unfold encodeFrame
    rw [List.append_assoc]
    exact readFullOrEof_full hpre (length_encodeFrameHeader _ _)
  have hpay : readFullOrEof (pre ++ (encodeFrame f ++ post)) (offset + frameHeaderLen)
      f.payload.length = .full f.payload := by
    unfold encodeFrame
    rw [List.append_assoc, ← List.append_assoc pre]
    exact readFullOrEof_full (by simp [hpre]) rfl
  have hok : ¬ (f.payload.length = 0 ∨ f.payload.length > maxFramePayload) := by
    have h1 := hf.1
    have h2 := hf.2
    omega
  unfold readFrameAt
  simp only [hhdr, hlen, hcrc, hseq, hpay, if_neg hok, ne_eq, not_true_eq_false, if_false,
    UInt64.ofNat_toNat]

/-- At the end of the file there is nothing to read. -/
theorem readFrameAt_end {file : Bytes} {offset : Nat} (h : file.length = offset) :
    readFrameAt file offset = .atEnd := by
  subst h
  unfold readFrameAt readFullOrEof
  simp [frameHeaderLen]

/-- **The bytes of a frame that was read are its encoding**, and its payload has a valid length. -/
theorem readFrameAt_decode {file : Bytes} {offset next : Nat} {f : DecodedFrame}
    (h : readFrameAt file offset = .frame f next) :
    file.drop offset = encodeFrame f ++ file.drop next ∧
      next = offset + frameLenOnDisk f.payload.length ∧ next ≤ file.length ∧
      ValidPayload f.payload := by
  unfold readFrameAt at h
  split at h
  · cases h
  · cases h
  · rename_i header hh
    obtain ⟨hhl, hhd, -⟩ := readFullOrEof_eq_full hh
    simp only at h
    split at h
    · cases h
    · rename_i hlen
      split at h
      · rename_i payload hp
        obtain ⟨hpl, hpd, hpb⟩ := readFullOrEof_eq_full hp
        split at h
        · cases h
        · rename_i hcrc
          rw [ne_eq, Decidable.not_not] at hcrc
          rw [FrameRead.frame.injEq] at h
          obtain ⟨rfl, rfl⟩ := h
          have h1 : toLe 4 payload.length = header.take 4 := by
            rw [hpl]
            have := toLe_ofLe (header.take 4)
            rwa [List.length_take, hhl] at this
          have h2 : toLe 4 (Crc32.hash payload).toNat = (header.drop 4).take 4 := by
            rw [hcrc]
            have := toLe_ofLe ((header.drop 4).take 4)
            rwa [List.length_take, List.length_drop, hhl] at this
          have h3 : toLe 8 (UInt64.ofNat (ofLe (header.drop 8))).toNat = header.drop 8 := by
            have hlt := ofLe_lt (header.drop 8)
            have := toLe_ofLe (header.drop 8)
            rw [List.length_drop, hhl] at this hlt
            rw [UInt64.toNat_ofNat', Nat.mod_eq_of_lt (show _ < 2 ^ 64 from hlt)]
            exact this
          have henc : encodeFrameHeader payload (UInt64.ofNat (ofLe (header.drop 8))) = header := by
            unfold encodeFrameHeader
            rw [h1, h2, h3]
            have e : (header.drop 4).take 4 ++ header.drop 8 = header.drop 4 := by
              have := List.take_append_drop 4 (header.drop 4)
              rwa [List.drop_drop] at this
            rw [List.append_assoc, e, List.take_append_drop]
          refine ⟨?_, by rw [hpl], ?_, ?_⟩
          · unfold encodeFrame frameLenOnDisk
            rw [henc, hhd, hpd, List.append_assoc, Nat.add_assoc]
          · unfold frameLenOnDisk
            have := hpb (by omega)
            omega
          · unfold ValidPayload
            rw [hpl]
            omega
      · cases h

end Statix.Wal
