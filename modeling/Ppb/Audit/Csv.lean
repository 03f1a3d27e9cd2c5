import Ppb.Common.Csv
import Ppb.Common.Replace
import Ppb.Pages.Endpoints

/-!
# The audit log as CSV (`audit/routes.rs`)

`csv_response` writes one line for each event. A free field that contains a comma, a quote or a
LF goes into quotes; a CR alone does not put it there.

* `csvEscape_cases`: a field comes back from what `csv_escape` makes of it unless it has a CR and
  no other special character.
* `csv_read_back_iff`: when a reader of CSV finds the events in the text.
-/

namespace Ppb.Audit

open Csv
open Pages (AuditEvent)

/-! ## Writing -/

/-- `csv_escape` (audit/routes.rs:230-236). -/
def csvEscape (s : String) : String :=
  if ',' ∈ s.toList ∨ '"' ∈ s.toList ∨ '\n' ∈ s.toList then
    "\"" ++ Text.replaceAll s "\"" "\"\"" ++ "\""
  else s

/-- `Display for DateTime<Utc>`. -/
structure ShowTime where
  toText : ℕ → String
  /-- digits, `-`, `:`, `.`, blanks and `UTC` -/
  plain : ∀ t, ∀ c ∈ (toText t).toList, isPlain c = true

variable (time : ShowTime)

/-- The line of an event (audit/routes.rs:202-216). -/
def csvRow (e : AuditEvent) : String :=
  e.id.toText ++ "," ++ time.toText e.occurredAt ++ "," ++ e.principalType ++ "," ++
    (e.actorUserId.map Uuid.toText).getD "" ++ "," ++ csvEscape e.action ++ "," ++
    csvEscape e.resourceType ++ "," ++ csvEscape e.resourceId ++ "," ++ e.result ++ "," ++
    csvEscape e.errorCode ++ "," ++ csvEscape e.requestId ++ "," ++ csvEscape e.commandId ++ "," ++
    csvEscape e.ip ++ "\n"

/-- The first line. -/
def csvHeader : String :=
  "id,occurred_at,principal_type,actor_user_id,action,resource_type,resource_id,result,error_code,"
    ++ "request_id,command_id,ip\n"

/-- The body of `csv_response` (audit/routes.rs:196-228). -/
def csvResponse (events : List AuditEvent) : String :=
  csvHeader ++ String.join (events.map (csvRow time))

/-! ## Reading -/

/-- The names in the first line. -/
def csvNames : List String :=
  ["id", "occurred_at", "principal_type", "actor_user_id", "action", "resource_type", "resource_id",
    "result", "error_code", "request_id", "command_id", "ip"]

/-- The fields of an event that are written as they are. -/
def csvFields (e : AuditEvent) : List String :=
  [e.id.toText, time.toText e.occurredAt, e.principalType, (e.actorUserId.map Uuid.toText).getD "",
    e.action, e.resourceType, e.resourceId, e.result, e.errorCode, e.requestId, e.commandId, e.ip]

/-- The fields that may be any text. -/
def freeFields (e : AuditEvent) : List String :=
  [e.action, e.resourceType, e.resourceId, e.errorCode, e.requestId, e.commandId, e.ip]

/-- There is a CR in the text, and nothing that puts it into quotes. -/
def BareCr (s : String) : Prop :=
  '\r' ∈ s.toList ∧ ¬ (',' ∈ s.toList ∨ '"' ∈ s.toList ∨ '\n' ∈ s.toList)

instance (s : String) : Decidable (BareCr s) := inferInstanceAs (Decidable (_ ∧ _))

/-- `csv_escape`, character by character. -/
def code (s : List Char) : List Char := (csvEscape (String.ofList s)).toList

theorem code_of_special {s : List Char} (h : ',' ∈ s ∨ '"' ∈ s ∨ '\n' ∈ s) :
    code s = '"' :: (s.flatMap double ++ ['"']) := by
  rw [code, csvEscape, if_pos (by simpa using h), Text.replaceAll]
  simp only [String.toList_append, String.toList_ofList]
  show '"' :: (Text.replaceFrom ['"'] ['"', '"'] 0 s ++ ['"']) = _
  rw [Text.replaceFrom_single]
  rfl

theorem code_of_not_special {s : List Char} (h : ¬ (',' ∈ s ∨ '"' ∈ s ∨ '\n' ∈ s)) :
    code s = s := by
  rw [code, csvEscape, if_neg (by simpa using h), String.toList_ofList]

theorem isPlain_iff {s : List Char} : (∀ c ∈ s, isPlain c = true) ↔
    ¬ (',' ∈ s ∨ '"' ∈ s ∨ '\n' ∈ s) ∧ '\r' ∉ s := by
  simp only [isPlain, Bool.and_eq_true, bne_iff_ne]
  constructor
  · intro h
    refine ⟨?_, fun hmem => (h _ hmem).1.2 rfl⟩
    rintro (hmem | hmem | hmem)
    · exact (h _ hmem).1.1.1 rfl
    · exact (h _ hmem).2 rfl
    · exact (h _ hmem).1.1.2 rfl
  · rintro ⟨hspecial, hcr⟩ c hc
    refine ⟨⟨⟨?_, ?_⟩, ?_⟩, ?_⟩
    · rintro rfl
      exact hspecial (.inl hc)
    · rintro rfl
      exact hspecial (.inr (.inr hc))
    · rintro rfl
      exact hcr hc
    · rintro rfl
      exact hspecial (.inr (.inl hc))

/-- A field comes back unless it has a bare CR, and then it does not. -/
theorem csvEscape_cases (s : String) :
    if BareCr s then Lost code s.toList else Kept code s.toList := by
  by_cases hspecial : ',' ∈ s.toList ∨ '"' ∈ s.toList ∨ '\n' ∈ s.toList
  · rw [if_neg fun h => h.2 hspecial]
    intro record c r hc
    rw [code_of_special hspecial, List.cons_append, List.append_assoc]
    exact read_quote hc
  · by_cases hcr : '\r' ∈ s.toList
    · rw [if_pos ⟨hcr, hspecial⟩]
      obtain ⟨p, q, hs, hp⟩ := List.eq_append_cons_of_mem hcr
      have hplain : ∀ c ∈ p, isPlain c = true := by
        rw [isPlain_iff]
        refine ⟨fun h => hspecial ?_, hp⟩
        rw [hs]
        simpa using h.imp .inl (Or.imp .inl .inl)
      have hq : '\n' ∉ q := fun h => hspecial (.inr (.inr (by rw [hs]; simp [h])))
      refine ⟨p, fun heq => ?_, fun record c r out hc hread => ?_⟩
      · rw [hs] at heq
        simpa using congrArg List.length heq
      · rw [code_of_not_special hspecial, hs, List.append_assoc, List.cons_append,
          read_bare_cr hplain hq] at hread
        split_ifs at hread with hend
        obtain ⟨rest, -, rfl⟩ := Option.map_eq_some_iff.mp hread
        exact ⟨hend.2, rfl⟩
    · rw [if_neg fun h => hcr h.1]
      intro record c r hc
      have hplain : ∀ c ∈ s.toList, isPlain c = true := isPlain_iff.mpr ⟨hspecial, hcr⟩
      rw [code_of_not_special hspecial]
      refine read_plain hplain ?_
      rcases hc with rfl | rfl <;> decide

/-! ## Lines -/

theorem code_of_plain {s : String} (h : ∀ c ∈ s.toList, isPlain c = true) :
    code s.toList = s.toList := code_of_not_special (isPlain_iff.mp h).1

theorem toList_csvEscape (s : String) : (csvEscape s).toList = code s.toList := by
  rw [code, String.ofList_toList]

theorem isPlain_hexDigit : ∀ n < 16, isPlain (Text.hexDigit n) = true := by decide

theorem isPlain_hexDigits (u : Uuid) (i n : ℕ) : ∀ c ∈ Uuid.hexDigits u i n, isPlain c = true := by
  intro c hc
  obtain ⟨k, -, rfl⟩ := List.mem_map.mp hc
  exact isPlain_hexDigit _ (Nat.mod_lt _ (by omega))

theorem isPlain_uuid (u : Uuid) : ∀ c ∈ u.toText.toList, isPlain c = true := by
  have hhyphen : isPlain '-' = true := by decide
  have hdigits := isPlain_hexDigits u
  intro c hc
  simp only [Uuid.toText, String.toList_ofList, List.mem_append, List.mem_singleton] at hc
  grind

theorem isPlain_actor (actor : Option Uuid) :
    ∀ c ∈ ((actor.map Uuid.toText).getD "").toList, isPlain c = true := by
  cases actor with
  | none => exact nofun
  | some u => exact isPlain_uuid u

theorem isPlain_principalType {e : AuditEvent} (h : e.Valid) :
    ∀ c ∈ e.principalType.toList, isPlain c = true := by
  rcases h.1 with h | h <;> rw [h] <;> exact List.all_eq_true.mp (by decide +kernel)

theorem isPlain_result {e : AuditEvent} (h : e.Valid) :
    ∀ c ∈ e.result.toList, isPlain c = true := by
  rcases h.2 with h | h | h <;> rw [h] <;> exact List.all_eq_true.mp (by decide +kernel)

theorem csvRow_eq_line {e : AuditEvent} (h : e.Valid) :
    (csvRow time e).toList = line code ((csvFields time e).map String.toList) := by
  have hcomma : ",".toList = [','] := by decide +kernel
  have hnewline : "\n".toList = ['\n'] := by decide +kernel
  have hid := code_of_plain (isPlain_uuid e.id)
  have htime := code_of_plain (time.plain e.occurredAt)
  have htype := code_of_plain (isPlain_principalType h)
  have hactor := code_of_plain (isPlain_actor e.actorUserId)
  have hresult := code_of_plain (isPlain_result h)
  unfold csvRow csvFields line
  generalize e.id.toText = id at hid ⊢
  generalize time.toText e.occurredAt = occurredAt at htime ⊢
  generalize (e.actorUserId.map Uuid.toText).getD "" = actor at hactor ⊢
  simp only [List.map_cons, List.map_nil, separated, String.toList_append, toList_csvEscape, hcomma,
    hnewline, hid, htime, htype, hactor, hresult, List.append_assoc, List.cons_append,
    List.nil_append]

theorem csvHeader_eq_line : csvHeader.toList = line code (csvNames.map String.toList) := by
  decide +kernel

/-- The text is the lines of its records. -/
theorem csvResponse_eq_lines {events : List AuditEvent} (h : ∀ e ∈ events, e.Valid) :
    (csvResponse time events).toList =
      ((csvNames :: events.map (csvFields time)).map fun r => r.map String.toList).flatMap
        (line code) := by
  rw [csvResponse, String.toList_append, csvHeader_eq_line, List.map_cons, List.flatMap_cons]
  congr 1
  induction events with
  | nil => rfl
  | cons e events ih =>
    rw [List.forall_mem_cons] at h
    rw [List.map_cons, String.join_cons, String.toList_append, csvRow_eq_line time h.1, ih h.2]
    rfl

/-! ## What is read back -/

theorem kept_or_lost (s : String) : Kept code s.toList ∨ Lost code s.toList := by
  have h := csvEscape_cases s
  split_ifs at h
  · exact .inr h
  · exact .inl h

theorem kept_iff (s : String) : Kept code s.toList ↔ ¬ BareCr s := by
  have h := csvEscape_cases s
  constructor
  · intro hkept hbare
    rw [if_pos hbare] at h
    exact h.not_kept hkept
  · intro hbare
    rwa [if_neg hbare] at h

/-- A name, an id, a time, an actor and a word of the schema have no CR. -/
theorem not_bareCr_of_plain {s : String} (h : ∀ c ∈ s.toList, isPlain c = true) : ¬ BareCr s :=
  fun hbare => (isPlain_iff.mp h).2 hbare.1

theorem bareCr_names : ∀ s ∈ csvNames, ¬ BareCr s := by decide +kernel

theorem bareCr_fields {e : AuditEvent} (h : e.Valid) :
    (∀ s ∈ csvFields time e, ¬ BareCr s) ↔ ∀ s ∈ freeFields e, ¬ BareCr s := by
  have hid := not_bareCr_of_plain (isPlain_uuid e.id)
  have htime := not_bareCr_of_plain (time.plain e.occurredAt)
  have htype := not_bareCr_of_plain (isPlain_principalType h)
  have hactor := not_bareCr_of_plain (isPlain_actor e.actorUserId)
  have hresult := not_bareCr_of_plain (isPlain_result h)
  simp only [csvFields, freeFields, List.forall_mem_cons, hid, htime, htype, hactor, hresult,
    not_false_eq_true, true_and]

theorem read_eq_some_iff {text : String} {records : List (List String)} :
    Csv.read text = some records ↔
      readFrom .start [] [] text.toList = some (records.map fun r => r.map String.toList) := by
  rw [Csv.read, Option.map_eq_some_iff]
  constructor
  · rintro ⟨out, hout, rfl⟩
    rw [hout, List.map_map]
    simp [Function.comp_def]
  · intro hout
    refine ⟨_, hout, ?_⟩
    rw [List.map_map]
    simp [Function.comp_def]

theorem readFrom_csvResponse_iff {events : List AuditEvent} (hvalid : ∀ e ∈ events, e.Valid) :
    readFrom .start [] [] (csvResponse time events).toList =
        some ((csvNames :: events.map (csvFields time)).map fun r => r.map String.toList) ↔
      ∀ e ∈ events, ∀ s ∈ freeFields e, ¬ BareCr s := by
  rw [csvResponse_eq_lines time hvalid]
  rw [readFrom_lines_iff]
  · constructor
    · intro hkept e he
      refine (bareCr_fields time (hvalid e he)).mp fun s hs => (kept_iff s).mp ?_
      exact hkept _ (List.mem_map_of_mem (List.mem_cons_of_mem _ (List.mem_map_of_mem he))) _
        (List.mem_map_of_mem hs)
    · intro hbare fields hfields t ht
      obtain ⟨record, hrecord, rfl⟩ := List.mem_map.mp hfields
      obtain ⟨s, hs, rfl⟩ := List.mem_map.mp ht
      rw [kept_iff]
      rcases List.mem_cons.mp hrecord with rfl | hrecord
      · exact bareCr_names s hs
      · obtain ⟨e, he, rfl⟩ := List.mem_map.mp hrecord
        exact (bareCr_fields time (hvalid e he)).mpr (hbare e he) s hs
  · intro fields hfields
    obtain ⟨record, hrecord, rfl⟩ := List.mem_map.mp hfields
    rcases List.mem_cons.mp hrecord with rfl | hrecord
    · simp [csvNames]
    · obtain ⟨e, -, rfl⟩ := List.mem_map.mp hrecord
      simp [csvFields]
  · intro fields hfields t ht
    obtain ⟨record, -, rfl⟩ := List.mem_map.mp hfields
    obtain ⟨s, -, rfl⟩ := List.mem_map.mp ht
    exact kept_or_lost s

/-- The text of an export, read as CSV, is the names and then the fields of each event, exactly
    if no free field has a CR that is not in quotes. -/
theorem csv_read_back_iff (time : ShowTime) (events : List AuditEvent)
    (hvalid : ∀ e ∈ events, e.Valid) :
    Csv.read (csvResponse time events) = some (csvNames :: events.map (csvFields time)) ↔
      ∀ e ∈ events, ∀ s ∈ freeFields e, ¬ BareCr s := by
  rw [read_eq_some_iff]
  exact readFrom_csvResponse_iff time hvalid

/-- Every time is shown as the same day. -/
def sampleTime : ShowTime :=
  ⟨fun _ => "2026-08-13 10:00:00 UTC", fun _ => List.all_eq_true.mp (by decide +kernel)⟩

/-- Root kicks somebody from a room. -/
def sampleEvent (resourceId : String) : AuditEvent where
  principalType := "root"
  actorUserId := none
  actorSessionId := none
  action := "room.kick"
  resourceType := "room"
  resourceId := resourceId
  parametersRedacted := .null
  result := "success"
  errorCode := ""
  requestId := "r"
  commandId := ""
  ip := "::1"
  userAgent := ""
  id := 1
  occurredAt := 0

theorem csv_read_back_quoted :
    Csv.read (csvResponse sampleTime [sampleEvent "a\r\n\"b\""]) =
      some [csvNames, csvFields sampleTime (sampleEvent "a\r\n\"b\"")] :=
  (csv_read_back_iff sampleTime [sampleEvent "a\r\n\"b\""] (by decide +kernel)).mpr
    (by decide +kernel)

/-- A room id with a CR in it: the export is not CSV any more. -/
theorem not_csv_read_back : (sampleEvent "a\rb").Valid ∧
    Csv.read (csvResponse sampleTime [sampleEvent "a\rb"]) ≠
      some [csvNames, csvFields sampleTime (sampleEvent "a\rb")] := by
  have hvalid : (sampleEvent "a\rb").Valid := by decide +kernel
  refine ⟨hvalid, fun hread => ?_⟩
  have hbare : BareCr "a\rb" := by decide +kernel
  rw [read_eq_some_iff] at hread
  have hall := (readFrom_csvResponse_iff sampleTime (by simpa using hvalid)).mp hread
  exact hall (sampleEvent "a\rb") (by simp) _ (by simp [freeFields, sampleEvent]) hbare

end Ppb.Audit
