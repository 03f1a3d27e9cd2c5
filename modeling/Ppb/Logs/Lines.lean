import Ppb.Common.Slices
import Ppb.Pages.Endpoints

/-!
# Log lines (`logs/mod.rs`)

`parse_log_line_with_seq` finds the time, the level and the message of a line that PMP has
logged. It tries three forms: JSON, `[time] [level] message`, and `time level message`, the last
with a single white space behind the time and a run of it behind the level.

* `exists_parseLogLineWithSeq`: no slice of the line panics, and only an empty line has an empty
  message.
* `log_line_grammar_iff`: a line of the last form is read as it was written exactly when one
  white space follows the time.
-/

namespace Ppb.Logs

open Text
open Pages (LogEntry)

/-! ## The code -/

/-- The variables of `parse_log_line_with_seq`. -/
structure LineFields where
  timestamp : String := ""
  level : String := "info"
  message : String
  event : Option String := none
  errorCode : Option String := none
  requestId : Option String := none
  commandId : Option String := none
  roomUuid : Option String := none
  userId : Option String := none

/-- `looks_like_timestamp` (logs/mod.rs:179-181); `none` is a panic. -/
def looksLikeTimestamp (s : List Char) : Option Bool :=
  if 10 ≤ byteLen s then
    (asBytes s)[4]?.bind fun b =>
      if b = 45 then
        (sliceTo s 4).map fun p => (asBytes p).all fun b => 48 ≤ b && b ≤ 57
      else some false
  else some false

/-- `is_known_level` (logs/mod.rs:183-185). -/
def isKnownLevel (s : String) : Bool :=
  ["trace", "debug", "info", "warn", "warning", "error", "fatal"].contains s

/-- `normalize_level` (logs/mod.rs:187-192). -/
def normalizeLevel (s : String) : String := if s = "warning" then "warn" else s

/-- `string_field` (logs/mod.rs:171-177). -/
def stringField (value : Json) (key : String) : Option String :=
  (value.get? key).bind fun v =>
    match v with
    | .str s => if s = "" then none else some s
    | .num n => some (Json.renderNumber n)
    | _ => none

/-- A line that is JSON (logs/mod.rs:106-117). -/
def jsonFields (value : Json) (trimmed : String) : LineFields :=
  let fields := (value.get? "fields").getD value
  { timestamp := ((value.get? "timestamp").bind Json.asStr).getD ""
    level := (((value.get? "level").bind Json.asStr).map fun s =>
      normalizeLevel (toAsciiLowercase s)).getD "info"
    message := (((fields.get? "message").or (value.get? "message")).bind Json.asStr).getD trimmed
    event := stringField fields "event"
    errorCode := stringField fields "error_code"
    requestId := stringField fields "request_id"
    commandId := stringField fields "command_id"
    roomUuid := (stringField fields "room_uuid").or (stringField fields "room_id")
    userId := stringField fields "user_id" }

/-- The level and the message, if what follows the time has them (logs/mod.rs:123-129). -/
def bracketedLevel (f : LineFields) : List Char → Option LineFields
  | '[' :: after =>
    match find ']' after with
    | none => some f
    | some close => do
      let level ← sliceTo after close
      let message ← sliceFrom after (close + 1)
      return { f with
        level := normalizeLevel (toAsciiLowercase (String.ofList level))
        message := String.ofList (trimStart message) }
  | _ => some f

/-- A line with a bracket at its front (logs/mod.rs:118-131). -/
def bracketedFields (rest : List Char) (trimmed : String) : Option LineFields :=
  match find ']' rest with
  | none => some { message := trimmed }
  | some close => do
    let timestamp ← sliceTo rest close
    let after ← sliceFrom rest (close + 1)
    bracketedLevel { timestamp := String.ofList timestamp, message := trimmed } (trimStart after)

/-- `trim_matches(|c: char| c == '[' || c == ']')`. -/
def trimBrackets (s : List Char) : List Char :=
  ((s.dropWhile fun c => c == '[' || c == ']').reverse.dropWhile fun c =>
    c == '[' || c == ']').reverse

/-- Any other line (logs/mod.rs:132-147); the parts are those of
    `splitn(3, char::is_whitespace)`. -/
def plainFields (line : List Char) : Option LineFields := do
  let (first, rest) := splitOnce line
  let (second, rest) := ((rest.map splitOnce).getD ([], none))
  let third := rest.getD []
  let timestamped ← looksLikeTimestamp first
  if timestamped = true then
    let level := toAsciiLowercase (String.ofList (trimBrackets second))
    if isKnownLevel level = true then
      return { timestamp := String.ofList first, level := normalizeLevel level,
               message := String.ofList (trimStart third) }
    else do
      let message ← sliceFrom line (byteLen first)
      return { timestamp := String.ofList first, message := String.ofList (trimStart message) }
  else return { message := String.ofList line }

section Parser

/- `serde_json::from_str`, and the digest of SHA-256 -/
variable (fromStr : String → Option Json) (sha256 : List UInt8 → Vector UInt8 32)

/-- `log_id_for` (logs/mod.rs:196-204). -/
def logIdFor (line : String) : Option UInt64 → String
  | some seq => "pmp-" ++ toString seq.toNat
  | none => "pmp-legacy-" ++ String.ofList (((sha256 (asBytes line.toList)).toList.take 8).flatMap
      fun b => [hexDigit (b.toNat / 16), hexDigit (b.toNat % 16)])

/-- The three forms. -/
def lineFields (trimmed : String) : Option LineFields :=
  match fromStr trimmed with
  | some value => some (jsonFields value trimmed)
  | none =>
    match trimmed.toList with
    | '[' :: rest => bracketedFields rest trimmed
    | line => plainFields line

/-- `parse_log_line_with_seq` (logs/mod.rs:91-165); `none` is a panic. -/
def parseLogLineWithSeq (line : String) (seq : Option UInt64) : Option LogEntry :=
  let trimmed := trim line
  (lineFields fromStr trimmed).map fun f =>
    { logId := logIdFor sha256 trimmed seq
      timestamp := f.timestamp
      service := "pmp"
      level := f.level
      event := f.event
      message := if f.message = "" then trimmed else f.message
      errorCode := f.errorCode
      requestId := f.requestId
      commandId := f.commandId
      roomUuid := f.roomUuid
      userId := f.userId }

end Parser

/-! ## No panics -/

variable {fromStr : String → Option Json} {sha256 : List UInt8 → Vector UInt8 32}

theorem looksLikeTimestamp_isSome (s : List Char) : (looksLikeTimestamp s).isSome = true := by
  unfold looksLikeTimestamp
  split_ifs with hlen
  · have hbyte : 4 < (asBytes s).length := by
      rw [length_asBytes]
      omega
    rw [List.getElem?_eq_getElem hbyte, Option.bind_some]
    split_ifs with hdash
    · have hfirst : (45 : UInt8).IsUTF8FirstByte := by decide
      rw [Option.isSome_map, sliceTo_isSome]
      exact isCharBoundary_of_asBytes hfirst (by rw [List.getElem?_eq_getElem hbyte, hdash])
    · rfl
  · rfl

/-- The level and the message behind `[`. -/
theorem bracketedLevel_append (f : LineFields) {level : List Char} (hlevel : ']' ∉ level)
    (message : List Char) : bracketedLevel f ('[' :: (level ++ ']' :: message)) = some { f with
      level := normalizeLevel (toAsciiLowercase (String.ofList level))
      message := String.ofList (trimStart message) } := by
  rw [bracketedLevel, find_append hlevel]
  simp only [sliceTo_append, sliceFrom_behind (show ']'.utf8Size = 1 by decide)]
  rfl

theorem bracketedFields_append {timestamp : List Char} (htime : ']' ∉ timestamp)
    (after : List Char) (trimmed : String) : bracketedFields (timestamp ++ ']' :: after) trimmed =
      bracketedLevel { timestamp := String.ofList timestamp, message := trimmed }
        (trimStart after) := by
  rw [bracketedFields, find_append htime]
  simp only [sliceTo_append, sliceFrom_behind (show ']'.utf8Size = 1 by decide)]
  rfl

theorem bracketedLevel_isSome (f : LineFields) (after : List Char) :
    (bracketedLevel f after).isSome = true := by
  cases after with
  | nil => rfl
  | cons c after =>
    by_cases hc : c = '['
    · subst hc
      cases hfind : find ']' after with
      | none =>
        rw [bracketedLevel, hfind]
        rfl
      | some close =>
        obtain ⟨level, message, rfl, hlevel, -⟩ := exists_of_find hfind
        rw [bracketedLevel_append f hlevel]
        rfl
    · rw [bracketedLevel]
      · rfl
      · rintro _ ⟨⟩
        exact hc rfl

theorem bracketedFields_isSome (rest : List Char) (trimmed : String) :
    (bracketedFields rest trimmed).isSome = true := by
  cases hfind : find ']' rest with
  | none =>
    rw [bracketedFields, hfind]
    rfl
  | some close =>
    obtain ⟨timestamp, after, rfl, htime, -⟩ := exists_of_find hfind
    rw [bracketedFields_append htime]
    exact bracketedLevel_isSome _ _

/-- The first part is the front of the line. -/
theorem sliceFrom_splitOnce (line : List Char) :
    sliceFrom line (byteLen (splitOnce line).1) =
      some (line.dropWhile fun c => !isWhitespace c) := by
  have h := sliceFrom_append (line.takeWhile fun c => !isWhitespace c)
    (line.dropWhile fun c => !isWhitespace c)
  rw [List.takeWhile_append_dropWhile] at h
  exact h

theorem plainFields_isSome (line : List Char) : (plainFields line).isSome = true := by
  obtain ⟨b, hb⟩ := Option.isSome_iff_exists.mp (looksLikeTimestamp_isSome (splitOnce line).1)
  simp only [plainFields, hb, Option.bind_eq_bind, Option.bind_some, sliceFrom_splitOnce]
  split_ifs
  · rfl
  · rfl
  · rfl

theorem lineFields_isSome (fromStr : String → Option Json) (trimmed : String) :
    (lineFields fromStr trimmed).isSome = true := by
  unfold lineFields
  split
  · rfl
  · split
    · exact bracketedFields_isSome _ _
    · exact plainFields_isSome _

/-- The function returns, and only of an empty line an empty message. -/
theorem exists_parseLogLineWithSeq (fromStr : String → Option Json)
    (sha256 : List UInt8 → Vector UInt8 32) (line : String) (seq : Option UInt64) :
    ∃ entry, parseLogLineWithSeq fromStr sha256 line seq = some entry ∧
      (trim line ≠ "" → entry.message ≠ "") := by
  obtain ⟨f, hf⟩ := Option.isSome_iff_exists.mp (lineFields_isSome fromStr (trim line))
  refine ⟨_, by rw [parseLogLineWithSeq, hf, Option.map_some], fun hline => ?_⟩
  show (if f.message = "" then trim line else f.message) ≠ ""
  split_ifs with hmessage
  · exact hline
  · exact hmessage

/-! ## Levels -/

theorem isAlpha_of_isKnownLevel {level : String}
    (h : isKnownLevel (toAsciiLowercase level) = true) : ∀ c ∈ level.toList, c.isAlpha = true := by
  have hlower : (["trace", "debug", "info", "warn", "warning", "error", "fatal"].all fun s =>
      s.toList.all Char.isLower) = true := by decide +kernel
  have hall := List.all_eq_true.mp hlower _ (List.contains_iff_mem.mp h)
  intro c hc
  rw [← Char.isLower_toLower_eq_isAlpha]
  refine List.all_eq_true.mp hall _ ?_
  rw [toAsciiLowercase, String.toList_ofList]
  exact List.mem_map_of_mem hc

/-- A letter is neither white space nor a bracket. -/
theorem isAlpha_cases {c : Char} (h : c.isAlpha = true) :
    isWhitespace c = false ∧ c ≠ '[' ∧ c ≠ ']' := by
  have hrange : 65 ≤ c.toNat ∧ c.toNat ≤ 90 ∨ 97 ≤ c.toNat ∧ c.toNat ≤ 122 := by
    simp only [Char.isAlpha, Char.isUpper, Char.isLower, Bool.or_eq_true, Bool.and_eq_true,
      decide_eq_true_eq, UInt32.le_iff_toNat_le, ge_iff_le] at h
    exact h
  refine ⟨?_, ?_, ?_⟩
  · simp only [isWhitespace, Bool.or_eq_false_iff, Bool.and_eq_false_iff, decide_eq_false_iff_not,
      beq_eq_false_iff_ne, ne_eq]
    omega
  · rintro rfl
    revert hrange
    decide
  · rintro rfl
    revert hrange
    decide

theorem trimBrackets_of_isAlpha {s : List Char} (h : ∀ c ∈ s, c.isAlpha = true) :
    trimBrackets s = s := by
  have hkeep {t : List Char} (ht : ∀ c ∈ t, c.isAlpha = true) :
      (t.dropWhile fun c => c == '[' || c == ']') = t := by
    cases t with
    | nil => rfl
    | cons c t =>
      have hc := isAlpha_cases (ht c List.mem_cons_self)
      rw [List.dropWhile_cons_of_neg (by simp [hc.2.1, hc.2.2])]
  rw [trimBrackets, hkeep h, hkeep (fun c hc => h c (List.mem_reverse.mp hc)),
    List.reverse_reverse]

/-! ## Times -/

theorem looksLikeTimestamp_eq_true {s : List Char} : looksLikeTimestamp s = some true ↔
    10 ≤ byteLen s ∧ (asBytes s)[4]? = some 45 ∧
      ∃ p, sliceTo s 4 = some p ∧ ((asBytes p).all fun b => 48 ≤ b && b ≤ 57) = true := by
  unfold looksLikeTimestamp
  constructor
  · intro h
    split_ifs at h with hlen
    · obtain ⟨b, hbyte, h⟩ := Option.bind_eq_some_iff.mp h
      split_ifs at h with hdash
      · rw [hdash] at hbyte
        exact ⟨hlen, hbyte, Option.map_eq_some_iff.mp h⟩
      · cases h
    · cases h
  · rintro ⟨hlen, hbyte, p, hp, hall⟩
    rw [if_pos hlen, hbyte, Option.bind_some, if_pos rfl, hp, Option.map_some, hall]

/-- A line looks like what it starts with. -/
theorem looksLikeTimestamp_append {s : List Char} (h : looksLikeTimestamp s = some true)
    (t : List Char) : looksLikeTimestamp (s ++ t) = some true := by
  obtain ⟨hlen, hbyte, p, hp, hall⟩ := looksLikeTimestamp_eq_true.mp h
  refine looksLikeTimestamp_eq_true.mpr ⟨?_, ?_, p, ?_, hall⟩
  · rw [byteLen_append]
    omega
  · obtain ⟨hlt, -⟩ := List.getElem?_eq_some_iff.mp hbyte
    rw [asBytes, List.flatMap_append, ← asBytes, List.getElem?_append_left hlt, hbyte]
  · obtain ⟨hstart, hbytes⟩ := (sliceTo_spec s 4 p).mp hp
    exact (sliceTo_spec _ 4 p).mpr ⟨hstart.trans (List.prefix_append s t), hbytes⟩

/-- A time starts with a digit. -/
theorem looksLikeTimestamp_bracket (t : List Char) : looksLikeTimestamp ('[' :: t) ≠ some true := by
  intro h
  obtain ⟨-, -, p, hp, hall⟩ := looksLikeTimestamp_eq_true.mp h
  obtain ⟨hstart, hbytes⟩ := (sliceTo_spec _ 4 p).mp hp
  cases p with
  | nil => cases hbytes
  | cons c p =>
    obtain ⟨rfl, -⟩ := List.cons_prefix_cons.mp hstart
    have hmem : (91 : UInt8) ∈ asBytes ('[' :: p) := by
      rw [asBytes, List.flatMap_cons]
      exact List.mem_append_left _ (by decide)
    exact absurd (List.all_eq_true.mp hall _ hmem) (by decide)

/-! ## The forms of a line -/

section Forms

variable {time level message w w₁ w₂ rest : List Char} {c d : Char}

/-- One white space behind the time: the level is the next word. -/
theorem plainFields_level (htime : looksLikeTimestamp time = some true)
    (hword : ∀ c ∈ time, isWhitespace c = false) (hc : isWhitespace c = true)
    (hlevel : isKnownLevel (toAsciiLowercase (String.ofList level)) = true)
    (hd : isWhitespace d = true) (rest : List Char) :
    plainFields (time ++ c :: (level ++ d :: rest)) = some
      { timestamp := String.ofList time
        level := normalizeLevel (toAsciiLowercase (String.ofList level))
        message := String.ofList (trimStart rest) } := by
  have halpha : ∀ c ∈ level, c.isAlpha = true := by
    have h := isAlpha_of_isKnownLevel hlevel
    rw [String.toList_ofList] at h
    exact h
  have hlevelWord : ∀ c ∈ level, isWhitespace c = false := fun c hc => (isAlpha_cases (halpha c hc)).1
  rw [plainFields, splitOnce_append hword hc]
  simp only [Option.map_some, Option.getD_some, splitOnce_append hlevelWord hd, htime,
    Option.bind_eq_bind, Option.bind_some, if_true, trimBrackets_of_isAlpha halpha, hlevel]
  rfl

/-- More than one: the next part is empty, and all behind the time is the message. -/
theorem plainFields_spaces (htime : looksLikeTimestamp time = some true)
    (hword : ∀ c ∈ time, isWhitespace c = false) (hc : isWhitespace c = true)
    (hd : isWhitespace d = true) (rest : List Char) :
    plainFields (time ++ c :: d :: rest) = some
      { timestamp := String.ofList time
        message := String.ofList (trimStart (c :: d :: rest)) } := by
  have hsecond : splitOnce (d :: rest) = ([], some rest) :=
    splitOnce_append (p := []) (by simp) hd rest
  have hunknown : isKnownLevel (toAsciiLowercase (String.ofList (trimBrackets []))) = false := by
    decide +kernel
  rw [plainFields, splitOnce_append hword hc]
  simp only [Option.map_some, Option.getD_some, hsecond, htime, Option.bind_eq_bind,
    Option.bind_some, if_true, hunknown, sliceFrom_append]
  rfl

end Forms

/-- The entry has what the line was written with. -/
def Reads (entry : Option LogEntry) (time level message : String) : Prop :=
  ∃ e, entry = some e ∧ e.timestamp = time ∧ e.level = normalizeLevel (toAsciiLowercase level) ∧
    e.message = message

/-- What the fields of a line are read as. -/
theorem reads_iff {line time level message : String} (hline : Trimmed line.toList) {f : LineFields}
    (hf : lineFields fromStr line = some f) (hmessage : f.message ≠ "") (seq : Option UInt64) :
    Reads (parseLogLineWithSeq fromStr sha256 line seq) time level message ↔
      f.timestamp = time ∧ f.level = normalizeLevel (toAsciiLowercase level) ∧
        f.message = message := by
  have htrim : trim line = line := by
    have h := hline.trim
    rw [String.ofList_toList] at h
    exact h
  rw [parseLogLineWithSeq]
  simp only [htrim, hf, Option.map_some, Reads, Option.some.injEq, exists_eq_left', if_neg hmessage]

/-- A run of white space. -/
def IsSpace (w : String) : Prop := w ≠ "" ∧ ∀ c ∈ w.toList, isWhitespace c = true

/-- The parts of a line `time level message`. -/
structure Parts (time w₁ level w₂ message : String) : Prop where
  timed : looksLikeTimestamp time.toList = some true
  word : ∀ c ∈ time.toList, isWhitespace c = false
  known : isKnownLevel (toAsciiLowercase level) = true
  nonempty : message ≠ ""
  trimmed : Trimmed message.toList
  space₁ : IsSpace w₁
  space₂ : IsSpace w₂

/-- Four digits and a hyphen start no JSON text. -/
def RejectsTimes (fromStr : String → Option Json) : Prop :=
  ∀ s : String, looksLikeTimestamp s.toList = some true → fromStr s = none

section Parts

variable {time w₁ level w₂ message : String}

theorem lineFields_plain (hjson : RejectsTimes fromStr) {line : String}
    (h : looksLikeTimestamp line.toList = some true) :
    lineFields fromStr line = plainFields line.toList := by
  rw [lineFields, hjson line h]
  cases hline : line.toList with
  | nil => rfl
  | cons c rest =>
    by_cases hc : c = '['
    · rw [hline, hc] at h
      exact absurd h (looksLikeTimestamp_bracket rest)
    · simp only
      split
      · rename_i heq
        exact absurd (List.cons_eq_cons.mp heq).1 hc
      · rfl

/-- A line `time level message` is read as it was written exactly when one white space follows the
    time. -/
theorem reads_parts_iff (hjson : RejectsTimes fromStr) (h : Parts time w₁ level w₂ message)
    (seq : Option UInt64) :
    Reads (parseLogLineWithSeq fromStr sha256 (time ++ w₁ ++ level ++ w₂ ++ message) seq)
      time level message ↔ w₁.length = 1 := by
  have hchars : (time ++ w₁ ++ level ++ w₂ ++ message).toList =
      time.toList ++ (w₁.toList ++ (level.toList ++ (w₂.toList ++ message.toList))) := by simp
  have hne : message.toList ≠ [] := by simpa using h.nonempty
  have hlevelNe : level.toList ≠ [] := by
    intro hnil
    have hempty : level = "" := by simpa using hnil
    exact absurd (hempty ▸ h.known) (by decide +kernel)
  have hlevelAlpha := isAlpha_of_isKnownLevel h.known
  have htimeNe : time.toList ≠ [] := by
    intro hnil
    exact absurd (hnil ▸ h.timed) (by decide)
  have htrimmed : Trimmed (time ++ w₁ ++ level ++ w₂ ++ message).toList := by
    rw [hchars, ← List.append_assoc, ← List.append_assoc, ← List.append_assoc]
    refine Trimmed.append (by simp [htimeNe]) (fun c hc => ?_) h.trimmed hne
    rw [List.append_assoc, List.append_assoc, List.head?_append_of_ne_nil _ htimeNe] at hc
    exact h.word c (List.mem_of_mem_head? hc)
  have hplain : lineFields fromStr (time ++ w₁ ++ level ++ w₂ ++ message) =
      plainFields (time ++ w₁ ++ level ++ w₂ ++ message).toList :=
    lineFields_plain hjson (by rw [hchars]; exact looksLikeTimestamp_append h.timed _)
  rw [← String.length_toList]
  have hspace₁ := h.space₁.2
  have hlevelOf : isKnownLevel (toAsciiLowercase (String.ofList level.toList)) = true := by
    rw [String.ofList_toList]
    exact h.known
  match hw₁ : w₁.toList with
  | [] => exact absurd (by simpa using hw₁) h.space₁.1
  | [c] =>
    rw [hw₁, List.forall_mem_singleton] at hspace₁
    match hw₂ : w₂.toList with
    | [] => exact absurd (by simpa using hw₂) h.space₂.1
    | d :: w =>
      have hspace₂ := h.space₂.2
      rw [hw₂, List.forall_mem_cons] at hspace₂
      have hmessage : trimStart (w ++ message.toList) = message.toList := by
        rw [trimStart_append hspace₂.2, trimStart_of_head h.trimmed.head]
      have hfields := plainFields_level h.timed h.word hspace₁ hlevelOf hspace₂.1
        (w ++ message.toList)
      rw [hmessage, String.ofList_toList, String.ofList_toList, String.ofList_toList] at hfields
      rw [hchars, hw₁, hw₂] at hplain
      refine iff_of_true ((reads_iff htrimmed (hplain.trans hfields) h.nonempty seq).mpr ?_) rfl
      exact ⟨rfl, rfl, rfl⟩
  | c :: d :: w =>
    rw [hw₁, List.forall_mem_cons, List.forall_mem_cons] at hspace₁
    have hmessage : trimStart (c :: d :: (w ++ (level.toList ++ (w₂.toList ++ message.toList)))) =
        level.toList ++ (w₂.toList ++ message.toList) := by
      have hrun : ∀ e ∈ c :: d :: w, isWhitespace e = true := by
        rw [List.forall_mem_cons, List.forall_mem_cons]
        exact hspace₁
      refine (trimStart_append hrun _).trans (trimStart_of_head fun e he => ?_)
      rw [List.head?_append_of_ne_nil _ hlevelNe] at he
      exact (isAlpha_cases (hlevelAlpha e (List.mem_of_mem_head? he))).1
    have hfields := plainFields_spaces h.timed h.word hspace₁.1 hspace₁.2.1
      (w ++ (level.toList ++ (w₂.toList ++ message.toList)))
    rw [hmessage, String.ofList_toList] at hfields
    rw [hchars, hw₁] at hplain
    have hlonger : String.ofList (level.toList ++ (w₂.toList ++ message.toList)) ≠ message := by
      intro heq
      have hlen := congrArg (List.length ∘ String.toList) heq
      simp only [Function.comp_apply, String.toList_ofList, List.length_append] at hlen
      have hpos := List.length_pos_iff.mpr hlevelNe
      omega
    refine iff_of_false ?_ (by simp)
    rw [reads_iff htrimmed (hplain.trans hfields) (by simp [h.nonempty]) seq]
    exact fun hreads => hlonger hreads.2.2

/-- A line `[time] [level] message` is read as it was written. -/
theorem reads_bracketed (htime : ']' ∉ time.toList)
    (hlevel : isKnownLevel (toAsciiLowercase level) = true) (hnonempty : message ≠ "")
    (htrimmed : Trimmed message.toList)
    (hjson : fromStr ("[" ++ time ++ "] [" ++ level ++ "] " ++ message) = none)
    (seq : Option UInt64) : Reads (parseLogLineWithSeq fromStr sha256
      ("[" ++ time ++ "] [" ++ level ++ "] " ++ message) seq) time level message := by
  have hchars : ("[" ++ time ++ "] [" ++ level ++ "] " ++ message).toList =
      '[' :: (time.toList ++ ']' :: (' ' :: '[' :: (level.toList ++ ']' :: ' ' :: message.toList))) := by
    simp
  have hlevelBracket : ']' ∉ level.toList := fun hmem =>
    (isAlpha_cases (isAlpha_of_isKnownLevel hlevel _ hmem)).2.2 rfl
  have hne : message.toList ≠ [] := by simpa using hnonempty
  have hline : Trimmed ("[" ++ time ++ "] [" ++ level ++ "] " ++ message).toList := by
    rw [String.toList_append]
    refine Trimmed.append (by simp) (fun c hc => ?_) htrimmed hne
    have hbracket : c = '[' := by simpa [eq_comm] using hc
    rw [hbracket]
    decide
  have hspace (s : List Char) : trimStart (' ' :: s) = trimStart s :=
    trimStart_append (w := [' ']) (List.all_eq_true.mp (by decide)) s
  have hnot : isWhitespace '[' = false := by decide
  have hbracket (s : List Char) : trimStart ('[' :: s) = '[' :: s :=
    trimStart_of_head fun c hc => by rw [← Option.some.inj hc, hnot]
  have hfields : lineFields fromStr ("[" ++ time ++ "] [" ++ level ++ "] " ++ message) =
      some { timestamp := time, level := normalizeLevel (toAsciiLowercase level),
             message := message } := by
    rw [lineFields, hjson, hchars]
    simp only [bracketedFields_append htime, hspace, hbracket, bracketedLevel_append _ hlevelBracket,
      trimStart_of_head htrimmed.head, String.ofList_toList]
  exact (reads_iff hline hfields hnonempty seq).mpr ⟨rfl, rfl, rfl⟩

end Parts

/-- A line of the last form is read as it was written exactly when one white space follows the
    time; one in brackets always is; no line makes the function panic, and only an empty one gives
    an empty message. -/
theorem log_line_grammar_iff (hjson : RejectsTimes fromStr)
    (sha256 : List UInt8 → Vector UInt8 32) (seq : Option UInt64) :
    (∀ time w₁ level w₂ message : String, Parts time w₁ level w₂ message →
      (Reads (parseLogLineWithSeq fromStr sha256 (time ++ w₁ ++ level ++ w₂ ++ message) seq)
        time level message ↔ w₁.length = 1)) ∧
    (∀ time level message : String, ']' ∉ time.toList →
      isKnownLevel (toAsciiLowercase level) = true → message ≠ "" → Trimmed message.toList →
      fromStr ("[" ++ time ++ "] [" ++ level ++ "] " ++ message) = none →
      Reads (parseLogLineWithSeq fromStr sha256
        ("[" ++ time ++ "] [" ++ level ++ "] " ++ message) seq) time level message) ∧
    ∀ line : String, ∃ entry, parseLogLineWithSeq fromStr sha256 line seq = some entry ∧
      (trim line ≠ "" → entry.message ≠ "") :=
  ⟨fun _ _ _ _ _ h => reads_parts_iff hjson h seq,
    fun _ _ _ htime hlevel hne htrimmed hline =>
      reads_bracketed htime hlevel hne htrimmed hline seq,
    fun line => exists_parseLogLineWithSeq fromStr sha256 line seq⟩

/-- The parts of a line that a short level name is padded in. -/
theorem padded_parts (w₁ : String) (h : IsSpace w₁) :
    Parts "2026-08-13T10:00:00Z" w₁ "WARN" " " "disk full" where
  timed := by decide +kernel
  word := by
    have hall : ("2026-08-13T10:00:00Z".toList.all fun c => !isWhitespace c) = true := by
      decide +kernel
    simpa using hall
  known := by decide +kernel
  nonempty := by decide
  trimmed := by
    have hhead : "disk full".toList.head? = some 'd' := by decide +kernel
    have hlast : "disk full".toList.getLast? = some 'l' := by decide +kernel
    refine ⟨?_, ?_⟩
    · rw [hhead]
      rintro _ ⟨⟩
      decide
    · rw [hlast]
      rintro _ ⟨⟩
      decide
  space₁ := h
  space₂ := ⟨by decide, List.all_eq_true.mp (by decide +kernel)⟩

theorem log_line_grammar_iff_single :
    Reads (parseLogLineWithSeq (fun _ => none) (fun _ => .replicate 32 0)
      ("2026-08-13T10:00:00Z" ++ " " ++ "WARN" ++ " " ++ "disk full") none)
      "2026-08-13T10:00:00Z" "WARN" "disk full" :=
  ((log_line_grammar_iff (fun _ _ => rfl) (fun _ => .replicate 32 0) none).1 _ " " _ _ _
    (padded_parts " " ⟨by decide, List.all_eq_true.mp (by decide +kernel)⟩)).mpr (by decide)

/-- With the padding of a short level name, the level is not found. -/
theorem not_log_line_grammar : ¬ ∀ (fromStr : String → Option Json)
    (sha256 : List UInt8 → Vector UInt8 32) (seq : Option UInt64)
    (time w₁ level w₂ message : String), RejectsTimes fromStr → Parts time w₁ level w₂ message →
    Reads (parseLogLineWithSeq fromStr sha256 (time ++ w₁ ++ level ++ w₂ ++ message) seq)
      time level message := by
  intro h
  obtain ⟨e, he, -, hlevel, -⟩ := h (fun _ => none) (fun _ => .replicate 32 0) none _ "  " _ _ _
    (fun _ _ => rfl) (padded_parts "  " ⟨by decide, List.all_eq_true.mp (by decide +kernel)⟩)
  have hrun : (parseLogLineWithSeq (fun _ => none) (fun _ => .replicate 32 0)
      ("2026-08-13T10:00:00Z" ++ "  " ++ "WARN" ++ " " ++ "disk full") none).map (·.level) =
        some "info" := by decide +kernel
  rw [he, Option.map_some, hlevel] at hrun
  exact absurd hrun (by decide +kernel)

end Ppb.Logs
