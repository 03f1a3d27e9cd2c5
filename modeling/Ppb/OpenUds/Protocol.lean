import Ppb.Common.Json
import Ppb.Common.LittleEndian

/-!
# Frames (`pmp/openuds/protocol.rs`)

A frame is the length of its payload in four bytes, the lowest first, and the payload, which is
the text of a JSON value. The writer refuses a payload of more than 16 MiB; the reader refuses
such a length, and the length 0.

* `readFrame_encode`: the reader takes back what the writer has made of a value.
* `readFrame_spec`: what the reader takes from a stream.
* `framing`: both for whole streams.

Deviations: a stream is what comes until it ends or fails; the errors do not hold the texts of the
UTF-8 and JSON errors.
-/

namespace Ppb.OpenUds

open LittleEndian

/-- `MAX_PAYLOAD_SIZE` (pmp/openuds/protocol.rs:10). -/
def maxPayloadSize : UInt32 := 16777216

/-- `ProtocolError` (pmp/openuds/protocol.rs:12-24). -/
inductive ProtocolError where
  | payloadTooLarge (len : UInt32)
  | invalidLengthPrefix
  | invalidUtf8
  | invalidJson
  | io
  deriving DecidableEq

/-- `serde_json::to_vec`. -/
def toVec (value : Json) : List UInt8 := value.render.toUTF8.data.toList

/-- `encode` (pmp/openuds/protocol.rs:38-49); a length that does not fit into 32 bits is cut. -/
def encode (value : Json) : Except ProtocolError (List UInt8) :=
  let payload := toVec value
  let len := UInt32.ofNat payload.length
  if maxPayloadSize < len then .error (.payloadTooLarge len)
  else .ok (le 4 len.toNat ++ payload)

/-- `read_exact`: the next `n` bytes and the rest. -/
def readExact (n : ℕ) (stream : List UInt8) : Except ProtocolError (List UInt8 × List UInt8) :=
  if stream.length < n then .error .io else .ok (stream.take n, stream.drop n)

/-- `read_frame_async` (pmp/openuds/protocol.rs:52-68); `parse` is `serde_json::from_str`. -/
def readFrame (parse : String → Option Json) (stream : List UInt8) :
    Except ProtocolError (Json × List UInt8) := do
  let (lenBuf, stream) ← readExact 4 stream
  let payloadLen := UInt32.ofNat (ofLe lenBuf)
  if payloadLen = 0 then throw .invalidLengthPrefix
  else if maxPayloadSize < payloadLen then throw (.payloadTooLarge payloadLen)
  else
    let (payload, stream) ← readExact payloadLen.toNat stream
    match String.fromUTF8? payload.toByteArray with
    | none => throw .invalidUtf8
    | some text =>
      match parse text with
      | none => throw .invalidJson
      | some value => return (value, stream)

/-- `n` frames. -/
def readFrames (parse : String → Option Json) : ℕ → List UInt8 →
    Except ProtocolError (List Json × List UInt8)
  | 0, stream => return ([], stream)
  | n + 1, stream => do
    let (value, stream) ← readFrame parse stream
    let (values, stream) ← readFrames parse n stream
    return (value :: values, stream)

variable {parse : String → Option Json} {value : Json} {stream rest frame : List UInt8}

/-! ## Text and bytes -/

theorem fromUTF8_toUTF8 (text : String) :
    String.fromUTF8? text.toUTF8.data.toList.toByteArray = some text := by
  have hbytes : text.toUTF8.data.toList.toByteArray = text.toUTF8 := by
    apply ByteArray.ext
    apply Array.toList_inj.mp
    rw [List.toList_data_toByteArray]
  have hvalid : text.toUTF8.IsValidUTF8 := text.isValidUTF8
  rw [hbytes, String.fromUTF8?, dif_pos hvalid]
  rfl

theorem length_toVec (value : Json) : (toVec value).length = value.render.utf8ByteSize := rfl

/-- A text that can be parsed is not empty. -/
theorem toVec_pos (hempty : parse "" = none) (hparse : parse value.render = some value) :
    0 < (toVec value).length := by
  rw [length_toVec, Nat.pos_iff_ne_zero]
  intro hzero
  rw [String.utf8ByteSize_eq_zero_iff.mp hzero, hempty] at hparse
  cases hparse

/-! ## One frame -/

theorem readExact_append {bytes : List UInt8} {n : ℕ} (hn : bytes.length = n) :
    readExact n (bytes ++ rest) = .ok (bytes, rest) := by
  subst hn
  rw [readExact, if_neg (by rw [List.length_append]; omega), List.take_left', List.drop_left'] <;> rfl

theorem readExact_spec {n : ℕ} {bytes : List UInt8} (h : readExact n stream = .ok (bytes, rest)) :
    n ≤ stream.length ∧ bytes = stream.take n ∧ rest = stream.drop n := by
  unfold readExact at h
  split_ifs at h with hlength
  obtain ⟨rfl, rfl⟩ := Prod.mk.inj (Except.ok.inj h)
  exact ⟨not_lt.mp hlength, rfl, rfl⟩

/-- The reader takes back what the writer has made of a value, and leaves the rest. -/
theorem readFrame_encode (hempty : parse "" = none) (hparse : parse value.render = some value)
    (hsmall : (toVec value).length < 2 ^ 32) (hencode : encode value = .ok frame) :
    readFrame parse (frame ++ rest) = .ok (value, rest) := by
  unfold encode at hencode
  dsimp only at hencode
  split_ifs at hencode with hmax
  obtain rfl := Except.ok.inj hencode
  have hlen : (UInt32.ofNat (toVec value).length).toNat = (toVec value).length := by
    rw [UInt32.toNat_ofNat', Nat.mod_eq_of_lt hsmall]
  have hpos := toVec_pos hempty hparse
  have hne : UInt32.ofNat (toVec value).length ≠ 0 := by
    intro hzero
    rw [hzero] at hlen
    have : (toVec value).length = 0 := hlen.symm
    omega
  unfold readFrame
  rw [List.append_assoc, readExact_append (length_le 4 _)]
  show (if UInt32.ofNat (ofLe (le 4 _)) = 0 then _ else _) = _
  rw [ofLe_le (by rw [hlen]; exact hsmall), UInt32.ofNat_toNat, if_neg hne, if_neg hmax, hlen,
    readExact_append rfl]
  show (match String.fromUTF8? (toVec value).toByteArray with
    | none => _
    | some text => _) = _
  rw [toVec, fromUTF8_toUTF8]
  dsimp only
  rw [hparse]
  rfl

/-- A value comes from the four bytes of a length and as many bytes as it says. -/
theorem readFrame_spec (h : readFrame parse stream = .ok (value, rest)) :
    ∃ len, len = ofLe (stream.take 4) ∧ 0 < len ∧ len ≤ maxPayloadSize.toNat ∧
      4 + len ≤ stream.length ∧ rest = stream.drop (4 + len) := by
  cases hprefix : readExact 4 stream with
  | error e =>
    rw [readFrame, hprefix] at h
    cases h
  | ok taken =>
    obtain ⟨lenBuf, behind⟩ := taken
    obtain ⟨hfour, rfl, rfl⟩ := readExact_spec hprefix
    have hlen : (UInt32.ofNat (ofLe (stream.take 4))).toNat = ofLe (stream.take 4) := by
      have hlt := ofLe_lt (stream.take 4)
      rw [List.length_take, Nat.min_eq_left hfour] at hlt
      exact UInt32.toNat_ofNat_of_lt' hlt
    rw [readFrame, hprefix] at h
    change (if UInt32.ofNat (ofLe (stream.take 4)) = 0 then throw .invalidLengthPrefix
      else if maxPayloadSize < UInt32.ofNat (ofLe (stream.take 4)) then throw _
      else readExact _ (stream.drop 4) >>= _) = _ at h
    split_ifs at h with hzero hmax
    rw [hlen] at h
    cases hpayload : readExact (ofLe (stream.take 4)) (stream.drop 4) with
    | error e =>
      rw [hpayload] at h
      cases h
    | ok taken =>
      obtain ⟨payload, behind⟩ := taken
      obtain ⟨hlength, -, rfl⟩ := readExact_spec hpayload
      rw [hpayload] at h
      change (match String.fromUTF8? payload.toByteArray with
        | none => throw ProtocolError.invalidUtf8
        | some text => _) = _ at h
      refine ⟨ofLe (stream.take 4), rfl, ?_, ?_, ?_, ?_⟩
      · rw [Nat.pos_iff_ne_zero]
        intro hnull
        rw [hnull] at hzero
        exact hzero rfl
      · rw [← hlen]
        exact UInt32.le_iff_toNat_le.mp (UInt32.not_lt.mp hmax)
      · rw [List.length_drop] at hlength
        omega
      · rw [← List.drop_drop]
        split at h
        · cases h
        · split at h
          · cases h
          · exact (Prod.mk.inj (Except.ok.inj h)).2.symm

/-! ## Streams of frames -/

/-- The reader takes back the values of all frames, and leaves the rest. -/
theorem readFrames_encode (hempty : parse "" = none) : ∀ {values : List Json}
    {frames : List (List UInt8)}, (∀ v ∈ values, parse v.render = some v) →
      (∀ v ∈ values, (toVec v).length < 2 ^ 32) → values.mapM encode = .ok frames →
      readFrames parse values.length (frames.flatten ++ rest) = .ok (values, rest) := by
  intro values
  induction values with
  | nil =>
    intro frames _ _ hencode
    obtain rfl := Except.ok.inj hencode
    rfl
  | cons v values ih =>
    intro frames hparse hsmall hencode
    rw [List.mapM_cons] at hencode
    cases hframe : encode v with
    | error e =>
      rw [hframe] at hencode
      cases hencode
    | ok frame =>
      rw [hframe] at hencode
      cases hframes : values.mapM encode with
      | error e =>
        rw [hframes] at hencode
        cases hencode
      | ok frames' =>
        rw [hframes] at hencode
        obtain rfl : frame :: frames' = frames := Except.ok.inj hencode
        have hfirst : readFrame parse (frame ++ (frames'.flatten ++ rest)) =
            .ok (v, frames'.flatten ++ rest) :=
          readFrame_encode hempty (hparse v List.mem_cons_self) (hsmall v List.mem_cons_self) hframe
        have hrest := ih (fun v' hv' => hparse v' (List.mem_cons_of_mem _ hv'))
          (fun v' hv' => hsmall v' (List.mem_cons_of_mem _ hv')) hframes
        rw [List.length_cons, List.flatten_cons, List.append_assoc, readFrames, hfirst]
        show (readFrames parse values.length (frames'.flatten ++ rest) >>= _) = _
        rw [hrest]
        rfl

/-- If what is parsed is what was written, the reader takes the values back from their frames and
    leaves what follows; and whatever the stream is, a value takes the four bytes of a length and as
    many bytes as it says, at least one and at most 16 MiB. -/
theorem framing (parse : String → Option Json) :
    (parse "" = none → ∀ values frames rest, (∀ v ∈ values, parse v.render = some v) →
      (∀ v ∈ values, (toVec v).length < 2 ^ 32) → values.mapM encode = .ok frames →
      readFrames parse values.length (frames.flatten ++ rest) = .ok (values, rest)) ∧
    ∀ stream value rest, readFrame parse stream = .ok (value, rest) →
      ∃ len, len = ofLe (stream.take 4) ∧ 0 < len ∧ len ≤ maxPayloadSize.toNat ∧
        4 + len ≤ stream.length ∧ rest = stream.drop (4 + len) :=
  ⟨fun hempty _ _ _ hparse hsmall hencode => readFrames_encode hempty hparse hsmall hencode,
    fun _ _ _ h => readFrame_spec h⟩

/-- A parser of three texts. -/
def sampleParse : String → Option Json
  | "null" => some .null
  | "[true]" => some (.arr [.bool true])
  | "\"x\"" => some (.str "x")
  | _ => none

theorem framing_three : readFrames sampleParse 3
    ([4, 0, 0, 0, 110, 117, 108, 108, 6, 0, 0, 0, 91, 116, 114, 117, 101, 93, 3, 0, 0, 0, 34, 120, 34] ++
      [7, 7]) = .ok ([.null, .arr [.bool true], .str "x"], [7, 7]) :=
  (framing sampleParse).1 rfl [.null, .arr [.bool true], .str "x"]
    [[4, 0, 0, 0, 110, 117, 108, 108], [6, 0, 0, 0, 91, 116, 114, 117, 101, 93],
      [3, 0, 0, 0, 34, 120, 34]] [7, 7]
    (by decide +kernel) (by decide +kernel) (by decide +kernel)

end Ppb.OpenUds
