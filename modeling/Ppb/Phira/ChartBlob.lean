import Ppb.Common.Serde
import Ppb.Server.Error

/-!
# The chart of the viewer (`phira/viewer.rs`)

`build_chart_blob` takes the info and the chart out of an archive. Every entry is read as a text,
whatever its name is, and an entry with a `.json` name that is a chart replaces the one before;
since the lines may be missing, most objects are charts without lines.

* `readEntries_eq`: what is read of an archive, in two independent parts.
* `blob_read_iff`: the archives that are read to their info and their chart.

The libraries are parameters. Deviations: numbers of 64 bits with a point are of any type. What is
no archive is parsed as a text, so it must be UTF-8 as a whole; `serde_json::from_slice` skips the
strings of unknown fields without looking at their encoding.
-/

namespace Ppb.Phira

open Serde

/-! ## The code -/

section Types

variable (F64 : Type)

/-- `ChartInfo` (viewer.rs:15-39). -/
structure ChartInfo where
  name : String
  composer : String
  illustrator : String
  charter : String
  level : String
  difficulty : String
  rating : Option F64
  ranked : Bool
  tags : List String
  description : String
  uploader : String
  deriving DecidableEq

/-- `ChartNote` (viewer.rs:54-66). -/
structure ChartNote where
  time : F64
  lane : Int32
  width : F64
  noteType : String
  hold : Option F64
  visibleTime : Option F64
  deriving DecidableEq

/-- `ChartLine` (viewer.rs:47-52). -/
structure ChartLine where
  id : Int32
  notes : List (ChartNote F64)
  deriving DecidableEq

/-- `Chart` (viewer.rs:41-45). -/
structure Chart where
  lines : List (ChartLine F64)
  deriving DecidableEq

end Types

/-- Why an entry of an archive cannot be read: `by_name` fails, or the reading does. -/
inductive ZipError where
  | byName (message : String)
  | read (message : String)
  deriving DecidableEq

/-- An entry of an archive: its name, which no other has, and what it is read to. -/
structure ZipEntry where
  name : String
  data : Except ZipError (List UInt8)

/-- What the code takes from `zip`, `serde_yaml`, `serde_json`, `bincode` and `str`. The fields of
    a JSON object are as they are written. -/
structure ChartLibs where
  F64 : Type
  Blob : Type
  zero : F64
  ofNumber : Number → F64
  openZip : List UInt8 → Except String (List ZipEntry)
  parseInfo : String → Option (ChartInfo F64)
  parseJson : String → Option Json
  toLowercase : String → String
  serialize : ChartInfo F64 × Chart F64 → Option Blob
  deserialize : Blob → Option (ChartInfo F64 × Chart F64)

variable (x : ChartLibs)

/-- `ChartInfo::default`. -/
def ChartInfo.default : ChartInfo x.F64 := ⟨"", "", "", "", "", "", none, false, [], "", ""⟩

/-- `Chart::default`. -/
def Chart.default : Chart x.F64 := ⟨[]⟩

/-- The fields of a struct that is read from a text: none of them may come twice. -/
def textFieldsOf (names : List String) (v : Json) : Option (ℕ → String → Option Json) :=
  match v with
  | .obj fields =>
    if ((fields.map (·.1)).filter (· ∈ names)).Nodup then fieldsOf names.length v else none
  | v => fieldsOf names.length v

def readF64 : Json → Option x.F64
  | .num n => some (x.ofNumber n)
  | _ => none

def readI32 (v : Json) : Option Int32 := do
  let i ← v.asI64
  if -2 ^ 31 ≤ i.toInt ∧ i.toInt < 2 ^ 31 then some i.toInt32 else none

def readList {α : Type} (read : Json → Option α) (v : Json) : Option (List α) :=
  v.asArray.bind fun items => items.mapM read

/-- `Deserialize for ChartNote`. -/
def readNote (v : Json) : Option (ChartNote x.F64) := do
  let field ← textFieldsOf ["time", "lane", "width", "type", "hold", "visible_time"] v
  let time ← required (readF64 x) (field 0 "time")
  let lane ← required readI32 (field 1 "lane")
  let width ← defaulted x.zero (readF64 x) (field 2 "width")
  let noteType ← defaulted "" Json.asStr (field 3 "type")
  let hold ← defaulted none (optional (readF64 x)) (field 4 "hold")
  let visibleTime ← defaulted none (optional (readF64 x)) (field 5 "visible_time")
  return ⟨time, lane, width, noteType, hold, visibleTime⟩

/-- `Deserialize for ChartLine`. -/
def readLine (v : Json) : Option (ChartLine x.F64) := do
  let field ← textFieldsOf ["id", "notes"] v
  let id ← required readI32 (field 0 "id")
  let notes ← defaulted [] (readList (readNote x)) (field 1 "notes")
  return ⟨id, notes⟩

/-- `Deserialize for Chart`. -/
def readChart (v : Json) : Option (Chart x.F64) := do
  let field ← textFieldsOf ["lines"] v
  let lines ← defaulted [] (readList (readLine x)) (field 0 "lines")
  return ⟨lines⟩

/-- `serde_json::from_str::<Chart>`. -/
def chartOfText (text : String) : Option (Chart x.F64) := (x.parseJson text).bind (readChart x)

/-- `read_to_string` of some bytes. -/
def utf8 (bytes : List UInt8) : Option String := String.fromUTF8? bytes.toByteArray

/-- What an entry is taken for by its name (viewer.rs:109-117). -/
inductive EntryKind where
  | info | chart | other
  deriving DecidableEq, Repr

def endsWith (text suffix : String) : Bool := suffix.toList.isSuffixOf text.toList

def entryKind (name : String) : EntryKind :=
  let lower := x.toLowercase name
  if endsWith lower ".yml" = true ∨ endsWith lower ".yaml" = true then .info
  else if endsWith lower ".json" = true then .chart
  else .other

/-- `ApiError::new(ErrorCode::PhiraApiUnavailable, ..)`. -/
def unavailable (message : String) : ApiError := .new .phiraApiUnavailable message

/-- The text of an entry (viewer.rs:103-108). -/
def entryText (e : ZipEntry) : Except ApiError String :=
  match e.data with
  | .error (.byName message) => .error (unavailable ("zip entry " ++ e.name ++ ": " ++ message))
  | .error (.read message) => .error (unavailable ("zip read " ++ e.name ++ ": " ++ message))
  | .ok bytes =>
    match utf8 bytes with
    | some text => .ok text
    | none =>
      .error (unavailable ("zip read " ++ e.name ++ ": stream did not contain valid UTF-8"))

/-- What a text is taken into. -/
def takeText (acc : ChartInfo x.F64 × Chart x.F64) (name text : String) :
    ChartInfo x.F64 × Chart x.F64 :=
  match entryKind x name with
  | .info => ((x.parseInfo text).getD acc.1, acc.2)
  | .chart => (acc.1, (chartOfText x text).getD acc.2)
  | .other => acc

/-- One round of the loop of `build_from_zip`. -/
def readEntry (acc : ChartInfo x.F64 × Chart x.F64) (e : ZipEntry) :
    Except ApiError (ChartInfo x.F64 × Chart x.F64) := do
  let text ← entryText e
  return takeText x acc e.name text

/-- `encode_blob` (viewer.rs:128-133). -/
def encodeBlob (info : ChartInfo x.F64) (chart : Chart x.F64) : Except ApiError x.Blob :=
  match x.serialize (info, chart) with
  | some blob => .ok blob
  | none => .error .internal

/-- `build_from_zip` (viewer.rs:91-126). -/
def buildFromZip (bytes : List UInt8) : Except ApiError x.Blob :=
  match x.openZip bytes with
  | .error e => .error (unavailable ("zip open: " ++ e))
  | .ok entries => do
    let (info, chart) ← entries.foldlM (readEntry x) (.default x, .default x)
    if chart.lines = [] then .error (unavailable "chart zip has no notes")
    else encodeBlob x info chart

/-- `build_chart_blob` (viewer.rs:75-89). -/
def buildChartBlob (bytes : List UInt8) : Except ApiError x.Blob :=
  match buildFromZip x bytes with
  | .ok blob => .ok blob
  | .error _ =>
    match (utf8 bytes).bind (chartOfText x) with
    | none => .error (unavailable ("chart format not supported " ++
        "(native RPE/PEC/PGR/PBC parsing pending client-side migration)"))
    | some chart =>
      if chart.lines = [] then .error (unavailable "chart has no notes")
      else encodeBlob x (.default x) chart

/-! ## What is read of an archive -/

/-- A file that was put into an archive. -/
structure File where
  name : String
  bytes : List UInt8

/-- The entry of a file. -/
def File.entry (f : File) : ZipEntry := ⟨f.name, .ok f.bytes⟩

/-- The info in a file. -/
def infoOf (f : File) : Option (ChartInfo x.F64) := (utf8 f.bytes).bind x.parseInfo

/-- The chart in a file. -/
def chartOf (f : File) : Option (Chart x.F64) := (utf8 f.bytes).bind (chartOfText x)

/-- What a file is taken into, of the info. -/
def infoStep (info : ChartInfo x.F64) (f : File) : ChartInfo x.F64 :=
  if entryKind x f.name = .info then (infoOf x f).getD info else info

/-- What a file is taken into, of the chart. -/
def chartStep (chart : Chart x.F64) (f : File) : Chart x.F64 :=
  if entryKind x f.name = .chart then (chartOf x f).getD chart else chart

variable {x} {files : List File} {f : File} {acc : ChartInfo x.F64 × Chart x.F64}
  {chart : Chart x.F64} {info : ChartInfo x.F64}

theorem readEntry_file (htext : utf8 f.bytes ≠ none) :
    readEntry x acc f.entry = .ok (infoStep x acc.1 f, chartStep x acc.2 f) := by
  obtain ⟨text, htext⟩ := Option.ne_none_iff_exists'.mp htext
  show (match utf8 f.bytes with
      | some text => Except.ok text
      | none => _) >>= _ = _
  rw [htext]
  show Except.ok (takeText x acc f.name text) = _
  rw [takeText, infoStep, chartStep, infoOf, chartOf, htext, Option.bind_some, Option.bind_some]
  cases entryKind x f.name with
  | info => simp
  | chart => simp
  | other => simp

/-- An entry that is no text fails. -/
theorem readEntry_bytes (htext : utf8 f.bytes = none) :
    ∃ e, readEntry x acc f.entry = .error e := by
  refine ⟨unavailable ("zip read " ++ f.name ++ ": stream did not contain valid UTF-8"), ?_⟩
  show (match utf8 f.bytes with
      | some text => Except.ok text
      | none => _) >>= _ = _
  rw [htext]
  rfl

/-- What is read of an archive, if every entry is a text. -/
theorem readEntries_eq (htexts : ∀ f ∈ files, utf8 f.bytes ≠ none) :
    (files.map File.entry).foldlM (readEntry x) acc =
      .ok (files.foldl (infoStep x) acc.1, files.foldl (chartStep x) acc.2) := by
  induction files generalizing acc with
  | nil => rfl
  | cons f rest ih =>
    rw [List.forall_mem_cons] at htexts
    rw [List.map_cons, List.foldlM_cons, readEntry_file htexts.1]
    exact ih htexts.2

/-- An archive with an entry that is no text cannot be read. -/
theorem readEntries_bytes (hbytes : ∃ f ∈ files, utf8 f.bytes = none) :
    ∃ e, (files.map File.entry).foldlM (readEntry x) acc = .error e := by
  induction files generalizing acc with
  | nil =>
    obtain ⟨f, hf, -⟩ := hbytes
    cases hf
  | cons f rest ih =>
    rw [List.map_cons, List.foldlM_cons]
    by_cases htext : utf8 f.bytes = none
    · obtain ⟨e, he⟩ : ∃ e, readEntry x acc f.entry = .error e := readEntry_bytes htext
      exact ⟨e, by rw [he]; rfl⟩
    · rw [readEntry_file htext]
      refine ih ?_
      obtain ⟨g, hg, hnone⟩ := hbytes
      rcases List.mem_cons.mp hg with rfl | hg
      · exact absurd hnone htext
      · exact ⟨g, hg, hnone⟩

/-- The only info is the one that is read. -/
theorem foldl_infoStep (hone : files.filter (entryKind x ·.name = .info) = [f])
    (hinfo : infoOf x f = some info) (start : ChartInfo x.F64) :
    files.foldl (infoStep x) start = info := by
  have hfilter : files.foldl (infoStep x) start =
      (files.filter (entryKind x ·.name = .info)).foldl
        (fun acc f => (infoOf x f).getD acc) start := by
    rw [List.foldl_filter]
    simp only [decide_eq_true_eq]
    rfl
  rw [hfilter, hone, List.foldl_cons, List.foldl_nil, hinfo, Option.getD_some]

/-- Without another chart the chart stays. -/
theorem foldl_chartStep_of_none
    (hnone : ∀ f ∈ files, entryKind x f.name = .chart → chartOf x f = none) :
    files.foldl (chartStep x) chart = chart := by
  induction files with
  | nil => rfl
  | cons f rest ih =>
    rw [List.forall_mem_cons] at hnone
    have hstep : chartStep x chart f = chart := by
      unfold chartStep
      split_ifs with hkind
      · rw [hnone.1 hkind, Option.getD_none]
      · rfl
    rw [List.foldl_cons, hstep]
    exact ih hnone.2

/-- Charts without lines leave no lines where there are none. -/
theorem foldl_chartStep_lines (hstart : chart.lines = [])
    (hempty : ∀ f ∈ files, entryKind x f.name = .chart → ∀ c, chartOf x f = some c → c.lines = []) :
    (files.foldl (chartStep x) chart).lines = [] := by
  induction files generalizing chart with
  | nil => exact hstart
  | cons f rest ih =>
    rw [List.forall_mem_cons] at hempty
    refine ih ?_ hempty.2
    unfold chartStep
    split_ifs with hkind
    · cases hchart : chartOf x f with
      | none => exact hstart
      | some c => exact hempty.1 hkind c hchart
    · exact hstart

/-- The last of some charts without lines replaces what was before. -/
theorem foldl_chartStep_of_some
    (hempty : ∀ f ∈ files, entryKind x f.name = .chart → ∀ c, chartOf x f = some c → c.lines = [])
    (hsome : ∃ f ∈ files, entryKind x f.name = .chart ∧ chartOf x f ≠ none) :
    (files.foldl (chartStep x) chart).lines = [] := by
  obtain ⟨f, hf, hkind, hchart⟩ := hsome
  obtain ⟨c, hc⟩ := Option.ne_none_iff_exists'.mp hchart
  obtain ⟨before, after, rfl⟩ := List.append_of_mem hf
  rw [List.foldl_append, List.foldl_cons]
  refine foldl_chartStep_lines ?_ fun g hg => hempty g (List.mem_append_right _ (.tail _ hg))
  rw [chartStep, if_pos hkind, hc, Option.getD_some]
  exact hempty f hf hkind c hc

/-! ## When the chart is read -/

/-- The bytes are an archive of some files, one of which is an info and one a chart with lines. -/
structure ArchiveOf (x : ChartLibs) (bytes : List UInt8) (info : ChartInfo x.F64)
    (chart : Chart x.F64) (before : List File) (e : File) (after : List File) : Prop where
  opened : x.openZip bytes = .ok ((before ++ e :: after).map File.entry)
  oneInfo : ∃ i, (before ++ e :: after).filter (entryKind x ·.name = .info) = [i] ∧
    infoOf x i = some info
  kind : entryKind x e.name = .chart
  isChart : chartOf x e = some chart
  lines : chart.lines ≠ []
  others : ∀ f ∈ before ++ after, entryKind x f.name = .chart →
    ∀ c, chartOf x f = some c → c.lines = []

variable {bytes : List UInt8} {before after : List File} {e : File}

/-- What an archive of texts is read to. -/
theorem ArchiveOf.read (h : ArchiveOf x bytes info chart before e after)
    (htexts : ∀ f ∈ before ++ e :: after, utf8 f.bytes ≠ none) :
    ((before ++ e :: after).map File.entry).foldlM (readEntry x) (.default x, .default x) =
      .ok (info, after.foldl (chartStep x) chart) := by
  obtain ⟨i, hone, hinfo⟩ := h.oneInfo
  have hstep (start : Chart x.F64) : chartStep x start e = chart := by
    rw [chartStep, if_pos h.kind, h.isChart, Option.getD_some]
  rw [readEntries_eq htexts, foldl_infoStep hone hinfo, List.foldl_append, List.foldl_cons, hstep]

/-- An archive with an entry that is no text is not read. -/
theorem ArchiveOf.error_of_bytes (h : ArchiveOf x bytes info chart before e after)
    (hbytes : ∃ f ∈ before ++ e :: after, utf8 f.bytes = none) :
    ∃ err, buildFromZip x bytes = .error err := by
  obtain ⟨err, herr⟩ : ∃ err, ((before ++ e :: after).map File.entry).foldlM (readEntry x)
      (.default x, .default x) = .error err := readEntries_bytes hbytes
  refine ⟨err, ?_⟩
  rw [buildFromZip, h.opened]
  show ((before ++ e :: after).map File.entry).foldlM (readEntry x) _ >>= _ = _
  rw [herr]
  rfl

/-- The blob of an archive has its info and its chart. -/
def BlobRead (x : ChartLibs) (bytes : List UInt8) (info : ChartInfo x.F64) (chart : Chart x.F64) :
    Prop :=
  ∃ blob, buildChartBlob x bytes = .ok blob ∧ x.deserialize blob = some (info, chart)

/-- An archive that cannot be read is no JSON either. -/
theorem not_blobRead_of_error {err : ApiError} (hjson : (utf8 bytes).bind x.parseJson = none)
    (hzip : buildFromZip x bytes = .error err) : ¬ BlobRead x bytes info chart := by
  rintro ⟨blob, hblob, -⟩
  have hbare : (utf8 bytes).bind (chartOfText x) = none := by
    cases htext : utf8 bytes with
    | none => rfl
    | some text =>
      rw [htext, Option.bind_some] at hjson
      rw [Option.bind_some, chartOfText, hjson, Option.bind_none]
  rw [buildChartBlob, hzip, hbare] at hblob
  cases hblob

/-- The archives that are read to their info and their chart. -/
theorem blob_read_iff (x : ChartLibs)
    (hserde : ∀ v, ∃ blob, x.serialize v = some blob ∧ x.deserialize blob = some v)
    (hjson : ∀ bytes entries, x.openZip bytes = .ok entries →
      (utf8 bytes).bind x.parseJson = none)
    (bytes : List UInt8) (info : ChartInfo x.F64) (chart : Chart x.F64) (before : List File)
    (e : File) (after : List File) (h : ArchiveOf x bytes info chart before e after) :
    BlobRead x bytes info chart ↔
      (∀ f ∈ before ++ e :: after, utf8 f.bytes ≠ none) ∧
        ∀ f ∈ after, entryKind x f.name = .chart → chartOf x f = none := by
  constructor
  · intro hread
    have htexts : ∀ f ∈ before ++ e :: after, utf8 f.bytes ≠ none := by
      by_contra hbytes
      push Not at hbytes
      obtain ⟨err, hzip⟩ := h.error_of_bytes hbytes
      exact not_blobRead_of_error (hjson bytes _ h.opened) hzip hread
    refine ⟨htexts, ?_⟩
    by_contra hafter
    push Not at hafter
    have hempty : (after.foldl (chartStep x) chart).lines = [] :=
      foldl_chartStep_of_some (fun f hf => h.others f (List.mem_append_right _ hf)) hafter
    have hzip : buildFromZip x bytes = .error (unavailable "chart zip has no notes") := by
      rw [buildFromZip, h.opened]
      show ((before ++ e :: after).map File.entry).foldlM (readEntry x) _ >>= _ = _
      rw [h.read htexts]
      show (if (after.foldl (chartStep x) chart).lines = [] then _ else _) = _
      rw [if_pos hempty]
    exact not_blobRead_of_error (hjson bytes _ h.opened) hzip hread
  · rintro ⟨htexts, hafter⟩
    obtain ⟨blob, hblob, hback⟩ := hserde (info, chart)
    refine ⟨blob, ?_, hback⟩
    have hzip : buildFromZip x bytes = .ok blob := by
      rw [buildFromZip, h.opened]
      show ((before ++ e :: after).map File.entry).foldlM (readEntry x) _ >>= _ = _
      rw [h.read htexts, foldl_chartStep_of_none hafter]
      show (if chart.lines = [] then _ else encodeBlob x info chart) = _
      rw [if_neg h.lines, encodeBlob, hblob]
    rw [buildChartBlob, hzip]

/-! ### A chart, and a chart with a picture -/

/-- `i.yml` and `c.json`, stored in an archive. -/
def plainZip : List UInt8 :=
  [80, 75, 3, 4, 20, 0, 0, 0, 0, 0, 0, 0, 33, 0, 119, 7, 86, 198, 8, 0, 0, 0, 8, 0, 0, 0, 5, 0,
    0, 0, 105, 46, 121, 109, 108, 110, 97, 109, 101, 58, 32, 65, 10, 80, 75, 3, 4, 20, 0, 0, 0, 0,
    0, 0, 0, 33, 0, 169, 108, 250, 71, 20, 0, 0, 0, 20, 0, 0, 0, 6, 0, 0, 0, 99, 46, 106, 115, 111,
    110, 123, 34, 108, 105, 110, 101, 115, 34, 58, 91, 123, 34, 105, 100, 34, 58, 49, 125, 93, 125,
    80, 75, 1, 2, 20, 0, 20, 0, 0, 0, 0, 0, 0, 0, 33, 0, 119, 7, 86, 198, 8, 0, 0, 0, 8, 0, 0, 0,
    5, 0, 0, 0, 0, 0, 0, 0, 0, 0, 0, 0, 128, 1, 0, 0, 0, 0, 105, 46, 121, 109, 108, 80, 75, 1, 2,
    20, 0, 20, 0, 0, 0, 0, 0, 0, 0, 33, 0, 169, 108, 250, 71, 20, 0, 0, 0, 20, 0, 0, 0, 6, 0, 0, 0,
    0, 0, 0, 0, 0, 0, 0, 0, 128, 1, 43, 0, 0, 0, 99, 46, 106, 115, 111, 110, 80, 75, 5, 6, 0, 0, 0,
    0, 2, 0, 2, 0, 103, 0, 0, 0, 99, 0, 0, 0, 0, 0]

/-- The same with a picture `p.png`. -/
def pictureZip : List UInt8 :=
  [80, 75, 3, 4, 20, 0, 0, 0, 0, 0, 0, 0, 33, 0, 119, 7, 86, 198, 8, 0, 0, 0, 8, 0, 0, 0, 5, 0,
    0, 0, 105, 46, 121, 109, 108, 110, 97, 109, 101, 58, 32, 65, 10, 80, 75, 3, 4, 20, 0, 0, 0, 0,
    0, 0, 0, 33, 0, 169, 108, 250, 71, 20, 0, 0, 0, 20, 0, 0, 0, 6, 0, 0, 0, 99, 46, 106, 115, 111,
    110, 123, 34, 108, 105, 110, 101, 115, 34, 58, 91, 123, 34, 105, 100, 34, 58, 49, 125, 93, 125,
    80, 75, 3, 4, 20, 0, 0, 0, 0, 0, 0, 0, 33, 0, 165, 190, 235, 91, 4, 0, 0, 0, 4, 0, 0, 0, 5, 0,
    0, 0, 112, 46, 112, 110, 103, 137, 80, 78, 71, 80, 75, 1, 2, 20, 0, 20, 0, 0, 0, 0, 0, 0, 0,
    33, 0, 119, 7, 86, 198, 8, 0, 0, 0, 8, 0, 0, 0, 5, 0, 0, 0, 0, 0, 0, 0, 0, 0, 0, 0, 128, 1, 0,
    0, 0, 0, 105, 46, 121, 109, 108, 80, 75, 1, 2, 20, 0, 20, 0, 0, 0, 0, 0, 0, 0, 33, 0, 169, 108,
    250, 71, 20, 0, 0, 0, 20, 0, 0, 0, 6, 0, 0, 0, 0, 0, 0, 0, 0, 0, 0, 0, 128, 1, 43, 0, 0, 0, 99,
    46, 106, 115, 111, 110, 80, 75, 1, 2, 20, 0, 20, 0, 0, 0, 0, 0, 0, 0, 33, 0, 165, 190, 235, 91,
    4, 0, 0, 0, 4, 0, 0, 0, 5, 0, 0, 0, 0, 0, 0, 0, 0, 0, 0, 0, 128, 1, 99, 0, 0, 0, 112, 46, 112,
    110, 103, 80, 75, 5, 6, 0, 0, 0, 0, 3, 0, 3, 0, 154, 0, 0, 0, 138, 0, 0, 0, 0, 0]

def infoFile : File := ⟨"i.yml", "name: A\n".toUTF8.data.toList⟩

def chartFile : File := ⟨"c.json", "\x7b\"lines\":[\x7b\"id\":1\x7d]\x7d".toUTF8.data.toList⟩

def pictureFile : File := ⟨"p.png", [0x89, 0x50, 0x4e, 0x47]⟩

/-- The libraries on an archive of some files. -/
abbrev sampleLibs (zip : List UInt8) (files : List File) : ChartLibs where
  F64 := Number
  Blob := ChartInfo Number × Chart Number
  zero := .float "0.0"
  ofNumber n := n
  openZip bytes := if bytes = zip then .ok (files.map File.entry) else .error "invalid Zip archive"
  parseInfo text :=
    if text = "name: A\n" then some ⟨"A", "", "", "", "", "", none, false, [], "", ""⟩ else none
  parseJson text :=
    if text = "\x7b\"lines\":[\x7b\"id\":1\x7d]\x7d" then
      some (.obj [("lines", .arr [.obj [("id", .num (.posInt 1))]])])
    else none
  toLowercase := Text.toAsciiLowercase
  serialize := some
  deserialize := some

def sampleInfo : ChartInfo Number := ⟨"A", "", "", "", "", "", none, false, [], "", ""⟩

def sampleChart : Chart Number := ⟨[⟨1, []⟩]⟩

variable {zip : List UInt8}

theorem sampleLibs_openZip (zip : List UInt8) (files : List File) :
    (sampleLibs zip files).openZip zip = .ok (files.map File.entry) := if_pos rfl

theorem sampleLibs_json (hzip : utf8 zip = none) (bytes : List UInt8) (entries : List ZipEntry)
    (h : (sampleLibs zip files).openZip bytes = .ok entries) :
    (utf8 bytes).bind (sampleLibs zip files).parseJson = none := by
  dsimp only at h
  split_ifs at h with hbytes
  rw [hbytes, hzip, Option.bind_none]

theorem sampleLibs_kinds (zip : List UInt8) (files : List File) :
    entryKind (sampleLibs zip files) infoFile.name = .info ∧
      entryKind (sampleLibs zip files) chartFile.name = .chart ∧
      entryKind (sampleLibs zip files) pictureFile.name = .other := by
  show entryKind (sampleLibs [] []) _ = _ ∧ entryKind (sampleLibs [] []) _ = _ ∧
    entryKind (sampleLibs [] []) _ = _
  decide +kernel

/-- The two files, and others that are neither an info nor a chart. -/
theorem sampleLibs_archiveOf (zip : List UInt8) {after : List File}
    (hafter : ∀ f ∈ after, f.name = pictureFile.name) :
    ArchiveOf (sampleLibs zip (infoFile :: chartFile :: after)) zip sampleInfo sampleChart
      [infoFile] chartFile after := by
  obtain ⟨hinfo, hchart, hpicture⟩ := sampleLibs_kinds zip (infoFile :: chartFile :: after)
  refine ⟨sampleLibs_openZip _ _, ⟨infoFile, ?_, ?_⟩, hchart, ?_, ?_, fun f hf hkind => ?_⟩
  · have hnone : after.filter (fun f => entryKind (sampleLibs zip (infoFile :: chartFile :: after))
        f.name = .info) = [] := by
      refine List.filter_eq_nil_iff.mpr fun f hf => ?_
      rw [hafter f hf, hpicture]
      decide
    simp [hinfo, hchart, hnone]
  · show infoOf (sampleLibs [] []) infoFile = some sampleInfo
    decide +kernel
  · show chartOf (sampleLibs [] []) chartFile = some sampleChart
    decide +kernel
  · exact List.cons_ne_nil _ _
  · rcases List.mem_cons.mp hf with rfl | hf
    · rw [hinfo] at hkind
      cases hkind
    · rw [hafter f hf, hpicture] at hkind
      cases hkind

/-- The chart is read, and the info. -/
theorem blob_read_plain :
    BlobRead (sampleLibs plainZip [infoFile, chartFile]) plainZip sampleInfo sampleChart := by
  have hbytes : utf8 plainZip = none := by decide +kernel
  have htexts : ∀ f ∈ [infoFile, chartFile], utf8 f.bytes ≠ none := by decide +kernel
  exact (blob_read_iff _ (fun v => ⟨v, rfl, rfl⟩) (sampleLibs_json hbytes) plainZip _ _ [infoFile]
    chartFile [] (sampleLibs_archiveOf plainZip nofun)).mpr ⟨htexts, nofun⟩

/-- With a picture in the archive nothing is read. -/
theorem not_blob_read_picture :
    ArchiveOf (sampleLibs pictureZip [infoFile, chartFile, pictureFile]) pictureZip sampleInfo
        sampleChart [infoFile] chartFile [pictureFile] ∧
      ¬ BlobRead (sampleLibs pictureZip [infoFile, chartFile, pictureFile]) pictureZip sampleInfo
        sampleChart := by
  have hafter : ∀ f ∈ [pictureFile], f.name = pictureFile.name := by simp
  have harchive := sampleLibs_archiveOf pictureZip hafter
  refine ⟨harchive, ?_⟩
  obtain ⟨err, hzip⟩ := harchive.error_of_bytes ⟨pictureFile, by simp, by decide +kernel⟩
  exact not_blobRead_of_error (sampleLibs_json (by decide +kernel) _ _ harchive.opened) hzip

end Ppb.Phira
