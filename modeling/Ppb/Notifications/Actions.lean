import Ppb.Admin.Routes
import Ppb.Common.Serde

/-!
# The buttons of a notification (`notifications/mod.rs`, `notifications/routes.rs`)

`normalize_action_drafts` checks the buttons of a request and gives each an id, and what it makes
of them is stored as JSON. `normalize_stored_actions` reads them back, for the inbox and for the
endpoint that presses one; a button that was stored without an id is read as a draft, and gets
one from its position.

* `readWire_toJson`: a stored button is read back as it was.
* `buttons_survive_storage`: so are all of a request, and each is found by its id; and whatever is
  stored, the buttons that are read are entries with a valid target, in their order.
-/

namespace Ppb.Notifications

open Admin Serde

/-! ## The code -/

/-- `NotificationActionWire` (notifications/mod.rs:69-80). -/
structure NotificationActionWire where
  id : String
  label : String
  labelKey : Option String
  action : NotificationActionKind
  data : NotificationActionTarget
  danger : Bool
  deriving DecidableEq, Repr

/-- `json!` of a button. -/
def NotificationActionWire.toJson (wire : NotificationActionWire) : Json :=
  .obj ([("action", .str wire.action.toText), ("danger", .bool wire.danger),
    ("data", wire.data.toJson), ("id", .str wire.id), ("label", .str wire.label)] ++
    optionalField "label_key" (wire.labelKey.map .str))

/-- What `normalize_action_drafts` makes of a draft (notifications/mod.rs:121-128). -/
def toWire (draft : NotificationActionDraft) (id : Uuid) : NotificationActionWire :=
  ⟨id.toText, Text.trim draft.label, draft.labelKey.filter fun s => Text.trim s != "",
    draft.action, draft.data, draft.danger⟩

theorem toJson_toWire (draft : NotificationActionDraft) (id : Uuid) :
    (toWire draft id).toJson = draft.toJson id := rfl

/-- The kinds, for the decoder of their names. -/
def allKinds : List NotificationActionKind :=
  [.joinRoom, .friendAccept, .friendReject, .openChart, .openReplay, .openRoom, .openUser,
    .openProfile]

def kindOfText (s : String) : Option NotificationActionKind := allKinds.find? (·.toText == s)

section Decoders

-- `Uuid::parse_str`
variable (parseUuid : String → Option Uuid)

/-- `Deserialize for NotificationActionTarget`. -/
def readTarget (v : Json) : Option NotificationActionTarget := do
  let field ← fieldsOf 5 v
  let roomId ← defaulted none (optional Json.asStr) (field 0 "room_id")
  let chartId ← defaulted none (optional Json.asI64) (field 1 "chart_id")
  let phiraId ← defaulted none (optional Json.asI64) (field 2 "phira_id")
  let roundUuid ← defaulted none (optional Json.asStr) (field 3 "round_uuid")
  let friendRequestId ←
    defaulted none (optional fun v => v.asStr.bind parseUuid) (field 4 "friend_request_id")
  return ⟨roomId, chartId, phiraId, roundUuid, friendRequestId⟩

/-- The fields of a draft, the first of them at position `k`. -/
def readFields (field : ℕ → String → Option Json) (k : ℕ) : Option NotificationActionDraft := do
  let label ← defaulted "" Json.asStr (field k "label")
  let labelKey ← defaulted none (optional Json.asStr) (field (k + 1) "label_key")
  let action ← required (unitVariant kindOfText) (field (k + 2) "action")
  let data ← defaulted ⟨none, none, none, none, none⟩ (readTarget parseUuid) (field (k + 3) "data")
  let danger ← defaulted false Json.asBool (field (k + 4) "danger")
  return ⟨label, labelKey, action, data, danger⟩

/-- `Deserialize for NotificationActionDraft`. -/
def readDraft (v : Json) : Option NotificationActionDraft := do
  let field ← fieldsOf 5 v
  readFields parseUuid field 0

/-- `Deserialize for NotificationActionWire`. -/
def readWire (v : Json) : Option NotificationActionWire := do
  let field ← fieldsOf 6 v
  let id ← required Json.asStr (field 0 "id")
  let draft ← readFields parseUuid field 1
  return ⟨id, draft.label, draft.labelKey, draft.action, draft.data, draft.danger⟩

/-- The id of an entry that was stored without one. -/
def legacyId (eventId : Uuid) (index : ℕ) : String :=
  "legacy-" ++ eventId.toText ++ "-" ++ toString index

/-- A draft that was stored. -/
def legacyWire (eventId : Uuid) (index : ℕ) (draft : NotificationActionDraft) :
    NotificationActionWire :=
  ⟨legacyId eventId index, Text.trim draft.label, draft.labelKey, draft.action, draft.data,
    draft.danger⟩

/-- `validate_action_target(..).ok()`. -/
def withTarget (wire : NotificationActionWire) : Option NotificationActionWire :=
  (validateActionTarget wire.action wire.data).toOption.map fun () => wire

/-- One entry of what is stored (notifications/mod.rs:146-161). -/
def storedAction (eventId : Uuid) (raw : Json) (index : ℕ) : Option NotificationActionWire :=
  match readWire parseUuid raw with
  | some action => withTarget action
  | none => (readDraft parseUuid raw).bind fun draft => withTarget (legacyWire eventId index draft)

/-- `normalize_stored_actions` (notifications/mod.rs:137-163). -/
def normalizeStoredActions (value : Option Json) (eventId : Uuid) : List NotificationActionWire :=
  match value.bind Json.asArray with
  | some items => items.zipIdx.filterMap fun e => storedAction parseUuid eventId e.1 e.2
  | none => []

/-- The button that `action` is asked to press (notifications/routes.rs:283-292). -/
def requestedAction (payload : Json) (eventId : Uuid) (action : String) :
    Except ApiError NotificationActionWire :=
  match (normalizeStoredActions parseUuid (payload.get? "actions") eventId).find?
      (·.id == action) with
  | some wire => .ok wire
  | none => .error
    (.new .notificationActionNotAvailable "action not available on this notification")

end Decoders

/-! ## Reading back -/

theorem get?_optionalField_append (k : String) (o : Option Json) (rest : List (String × Json))
    (key : String) : Fields.get? (optionalField k o ++ rest) key =
      if k = key then o.or (Fields.get? rest key) else Fields.get? rest key := by
  cases o with
  | none =>
    split_ifs
    · rfl
    · rfl
  | some v => exact Fields.get?_cons k v rest key

theorem kindOfText_toText (kind : NotificationActionKind) : kindOfText kind.toText = some kind := by
  cases kind <;> decide +kernel

section ReadBack

variable {parseUuid : String → Option Uuid} (hparse : ∀ id : Uuid, parseUuid id.toText = some id)
include hparse

theorem readTarget_toJson (target : NotificationActionTarget) :
    readTarget parseUuid target.toJson = some target := by
  have hroom := defaulted_optional Json.asStr .str rfl (fun _ => rfl) target.roomId
  have hchart := defaulted_optional Json.asI64 .ofInt64 rfl Json.asI64_ofInt64 target.chartId
  have hphira := defaulted_optional Json.asI64 .ofInt64 rfl Json.asI64_ofInt64 target.phiraId
  have hround := defaulted_optional Json.asStr .str rfl (fun _ => rfl) target.roundUuid
  have hfriend := defaulted_optional (fun v => v.asStr.bind parseUuid)
    (fun id => .str id.toText) rfl hparse target.friendRequestId
  have hlast (k : String) (o : Option Json) (key : String) :
      Fields.get? (optionalField k o) key = if k = key then o else none := by
    have h := get?_optionalField_append k o [] key
    rw [List.append_nil, Fields.get?_nil, Option.or_none] at h
    exact h
  simp only [NotificationActionTarget.toJson, readTarget, fieldsOf, List.append_assoc,
    get?_optionalField_append, hlast, String.reduceEq, if_true, if_false, Option.or_none,
    Option.bind_eq_bind, Option.bind_some, hroom, hchart, hphira, hround, hfriend]
  rfl

theorem readWire_toJson (wire : NotificationActionWire) :
    readWire parseUuid wire.toJson = some wire := by
  have hkey := defaulted_optional Json.asStr .str rfl (fun _ => rfl) wire.labelKey
  have hlabelKey (key : String) : Fields.get? (optionalField "label_key" (wire.labelKey.map .str))
      key = if "label_key" = key then wire.labelKey.map .str else none := by
    have h := get?_optionalField_append "label_key" (wire.labelKey.map .str) [] key
    rw [List.append_nil, Fields.get?_nil, Option.or_none] at h
    exact h
  have hkind : required (unitVariant kindOfText) (some (.str wire.action.toText)) =
      some wire.action := kindOfText_toText wire.action
  have htarget : defaulted ⟨none, none, none, none, none⟩ (readTarget parseUuid)
      (some wire.data.toJson) = some wire.data := readTarget_toJson hparse wire.data
  simp only [NotificationActionWire.toJson, readWire, readFields, fieldsOf, List.cons_append,
    List.nil_append, Fields.get?_cons, hlabelKey, String.reduceEq, if_true, if_false,
    Option.bind_eq_bind, Option.bind_some, hkey, hkind, htarget]
  rfl

/-- A button with a valid target is read back wherever it is stored. -/
theorem storedAction_toJson {wire : NotificationActionWire}
    (hvalid : validateActionTarget wire.action wire.data = .ok ()) (eventId : Uuid) (index : ℕ) :
    storedAction parseUuid eventId wire.toJson index = some wire := by
  rw [storedAction, readWire_toJson hparse]
  show withTarget wire = some wire
  rw [withTarget, hvalid]
  rfl

theorem normalizeStoredActions_toJson {wires : List NotificationActionWire}
    (hvalid : ∀ wire ∈ wires, validateActionTarget wire.action wire.data = .ok ())
    (eventId : Uuid) : normalizeStoredActions parseUuid
      (some (.arr (wires.map NotificationActionWire.toJson))) eventId = wires := by
  show ((wires.map NotificationActionWire.toJson).zipIdx 0).filterMap _ = wires
  generalize 0 = n
  induction wires generalizing n with
  | nil => rfl
  | cons wire wires ih =>
    have hhead := storedAction_toJson hparse (hvalid wire List.mem_cons_self) eventId n
    have htail := ih (fun w hw => hvalid w (List.mem_cons_of_mem _ hw)) (n + 1)
    rw [List.map_cons, List.zipIdx_cons, List.filterMap_cons]
    simp only [hhead, htail]

end ReadBack

/-! ## What a request stores -/

/-- An id that the server draws. -/
def generated (id : Uuid) : Event Admin.Query Admin.Query.Answer :=
  ⟨.server .newUuid, id⟩

/-- The ids drawn in a history. -/
def generatedIds (h : History Admin.Query Admin.Query.Answer) : List Uuid :=
  h.filterMap fun e =>
    match e with
    | ⟨.server .newUuid, id⟩ => some id
    | _ => none

/-- Drafts that are accepted get an id each. -/
theorem wp_normalizeActionDrafts (drafts : List NotificationActionDraft)
    (h₀ : History Admin.Query Admin.Query.Answer) :
    Prog.wp (fun _ _ => True) (normalizeActionDrafts drafts) h₀ fun h r => ∀ out, r = .ok out →
      ∃ ids : List Uuid, h = h₀ ++ ids.map generated ∧ ids.length = drafts.length ∧
        out = List.zipWith NotificationActionDraft.toJson drafts ids ∧
        ∀ draft ∈ drafts, validateActionTarget draft.action draft.data = .ok () := by
  induction drafts generalizing h₀ with
  | nil =>
    rintro out ⟨⟩
    exact ⟨[], by simp⟩
  | cons draft rest ih =>
    apply Prog.wp_failIf_bind (by simp)
    intro hdraft
    cases hvalid : validateActionTarget draft.action draft.data with
    | error e => exact fun out h => by cases h
    | ok u =>
      refine Prog.wp_ask (fun _ => trivial) fun id => ?_
      refine Prog.wp_bind (ih _) (fun h wires hwires => ?_) fun _ _ _ _ h => by cases h
      rintro out ⟨⟩
      obtain ⟨ids, rfl, hlength, rfl, hrest⟩ := hwires wires rfl
      refine ⟨id :: ids, ?_, by simp [hlength], rfl, ?_⟩
      · rw [List.append_assoc, List.map_cons]
        rfl
      · rw [List.forall_mem_cons]
        exact ⟨hvalid, hrest⟩

/-! ## Survival -/

theorem generatedIds_map (ids : List Uuid) : generatedIds (ids.map generated) = ids := by
  rw [generatedIds, List.filterMap_map]
  exact List.filterMap_some

theorem toText_injective : Function.Injective Uuid.toText := fun a b h => by
  have hread := congrArg Uuid.ofText h
  rw [Uuid.ofText_toText, Uuid.ofText_toText] at hread
  exact Option.some.inj hread

variable {drafts : List NotificationActionDraft} {ids : List Uuid}

theorem map_id_zipWith (hlength : ids.length = drafts.length) :
    (List.zipWith toWire drafts ids).map (·.id) = ids.map Uuid.toText := by
  induction drafts generalizing ids with
  | nil => simp [List.length_eq_zero_iff.mp hlength]
  | cons draft drafts ih =>
    cases ids with
    | nil => cases hlength
    | cons id ids => exact congrArg (id.toText :: ·) (ih (Nat.succ.inj hlength))

theorem forall₂_toWire (hlength : ids.length = drafts.length) :
    List.Forall₂ (fun draft wire => ∃ id, wire = toWire draft id) drafts
      (List.zipWith toWire drafts ids) := by
  induction drafts generalizing ids with
  | nil => simp
  | cons draft drafts ih =>
    cases ids with
    | nil => cases hlength
    | cons id ids => exact .cons ⟨id, rfl⟩ (ih (Nat.succ.inj hlength))

/-- A button has the target of its draft. -/
theorem validate_zipWith
    (hvalid : ∀ draft ∈ drafts, validateActionTarget draft.action draft.data = .ok ())
    (ids : List Uuid) : ∀ wire ∈ List.zipWith toWire drafts ids,
      validateActionTarget wire.action wire.data = .ok () := by
  intro wire hmem
  rw [← List.map_uncurry_zip_eq_zipWith] at hmem
  obtain ⟨pair, hpair, rfl⟩ := List.mem_map.mp hmem
  exact hvalid pair.1 (List.of_mem_zip hpair).1

/-- The buttons `out`, made of `drafts`, are read back as they were, and each is found by its
    id. -/
def Survive (parseUuid : String → Option Uuid) (eventId : Uuid)
    (drafts : List NotificationActionDraft) (out : List Json) : Prop :=
  ∃ wires : List NotificationActionWire,
    List.Forall₂ (fun draft wire => ∃ id, wire = toWire draft id) drafts wires ∧
    out = wires.map NotificationActionWire.toJson ∧
    normalizeStoredActions parseUuid (some (.arr out)) eventId = wires ∧
    ∀ wire ∈ wires,
      (∀ payload : Json, payload.get? "actions" = some (.arr out) →
        requestedAction parseUuid payload eventId wire.id = .ok wire) ∧
      ∀ wire' ∈ wires, wire'.id = wire.id → wire' = wire

section Survival

variable {parseUuid : String → Option Uuid} (hparse : ∀ id : Uuid, parseUuid id.toText = some id)
include hparse

theorem survive {h : History Admin.Query Admin.Query.Answer} {out : List Json}
    (hends : (normalizeActionDrafts drafts).Ends h (.ok out)) (hfresh : (generatedIds h).Nodup)
    (eventId : Uuid) : Survive parseUuid eventId drafts out := by
  obtain ⟨ids, rfl, hlength, rfl, hvalid⟩ :=
    Prog.of_ends (wp_normalizeActionDrafts drafts []) hends out rfl
  rw [List.nil_append, generatedIds_map] at hfresh
  have hout : List.zipWith NotificationActionDraft.toJson drafts ids =
      (List.zipWith toWire drafts ids).map NotificationActionWire.toJson := by
    rw [List.map_zipWith]
    rfl
  have hread := normalizeStoredActions_toJson hparse (validate_zipWith hvalid ids) eventId
  have hnodup : ((List.zipWith toWire drafts ids).map (·.id)).Nodup := by
    rw [map_id_zipWith hlength]
    exact hfresh.map toText_injective
  have hsame {wire wire'} (hmem : wire ∈ List.zipWith toWire drafts ids)
      (hmem' : wire' ∈ List.zipWith toWire drafts ids) (hid : wire'.id = wire.id) :
      wire' = wire := List.inj_on_of_nodup_map hnodup hmem' hmem hid
  rw [hout]
  refine ⟨_, forall₂_toWire hlength, rfl, hread, fun wire hmem => ⟨fun payload hpayload => ?_,
    fun wire' hmem' => hsame hmem hmem'⟩⟩
  rw [requestedAction, hpayload, hread]
  cases hfind : (List.zipWith toWire drafts ids).find? (·.id == wire.id) with
  | none => exact absurd (beq_self_eq_true wire.id) (List.find?_eq_none.mp hfind wire hmem)
  | some found =>
    have hid : found.id = wire.id := by simpa using List.find?_some hfind
    rw [hsame hmem (List.mem_of_find?_eq_some hfind) hid]

end Survival

/-! ## Whatever is stored -/

section Stored

variable {parseUuid : String → Option Uuid}

/-- A stored entry that is read as a button with a valid target. -/
structure ReadsAs (parseUuid : String → Option Uuid) (eventId : Uuid) (entry : Json × ℕ)
    (wire : NotificationActionWire) : Prop where
  valid : validateActionTarget wire.action wire.data = .ok ()
  read : readWire parseUuid entry.1 = some wire ∨ readWire parseUuid entry.1 = none ∧
    ∃ draft, readDraft parseUuid entry.1 = some draft ∧ wire = legacyWire eventId entry.2 draft

theorem withTarget_eq_some {wire wire' : NotificationActionWire} (h : withTarget wire = some wire') :
    wire' = wire ∧ validateActionTarget wire.action wire.data = .ok () := by
  unfold withTarget at h
  cases hvalid : validateActionTarget wire.action wire.data with
  | error e =>
    rw [hvalid] at h
    cases h
  | ok u =>
    rw [hvalid] at h
    exact ⟨(Option.some.inj h).symm, rfl⟩

theorem readsAs_of_storedAction {eventId : Uuid} {entry : Json × ℕ} {wire : NotificationActionWire}
    (h : storedAction parseUuid eventId entry.1 entry.2 = some wire) :
    ReadsAs parseUuid eventId entry wire := by
  unfold storedAction at h
  cases hread : readWire parseUuid entry.1 with
  | some action =>
    rw [hread] at h
    obtain ⟨rfl, hvalid⟩ := withTarget_eq_some h
    exact ⟨hvalid, .inl hread⟩
  | none =>
    rw [hread] at h
    obtain ⟨draft, hdraft, hwire⟩ := Option.bind_eq_some_iff.mp h
    obtain ⟨rfl, hvalid⟩ := withTarget_eq_some hwire
    exact ⟨hvalid, .inr ⟨hread, draft, hdraft, rfl⟩⟩

/-- The entries that are read, and what they are read as. -/
theorem exists_sublist_filterMap {α β : Type} (f : α → Option β) (l : List α) :
    ∃ kept, kept.Sublist l ∧ List.Forall₂ (fun a b => f a = some b) kept (l.filterMap f) := by
  induction l with
  | nil => exact ⟨[], .slnil, .nil⟩
  | cons a l ih =>
    obtain ⟨kept, hsub, hread⟩ := ih
    cases hfa : f a with
    | none =>
      rw [List.filterMap_cons_none hfa]
      exact ⟨kept, hsub.cons a, hread⟩
    | some b =>
      rw [List.filterMap_cons_some hfa]
      exact ⟨a :: kept, hsub.cons_cons a, .cons hfa hread⟩

theorem legacyId_injective (eventId : Uuid) : Function.Injective (legacyId eventId) := by
  intro i j h
  have hindex : toString i = toString j := by
    simpa [legacyId, String.append_assoc] using h
  exact Nat.repr_injective hindex

/-- The buttons that are read are entries with a valid target, in their order, and no two of those
    that had no id get the same. -/
def ReadInOrder (parseUuid : String → Option Uuid) (eventId : Uuid) (items : List Json) : Prop :=
  ∃ kept : List (Json × ℕ), kept.Sublist items.zipIdx ∧
    List.Forall₂ (ReadsAs parseUuid eventId) kept
      (normalizeStoredActions parseUuid (some (.arr items)) eventId) ∧
    (kept.zip (normalizeStoredActions parseUuid (some (.arr items)) eventId)).Pairwise
      fun a b => readWire parseUuid a.1.1 = none → readWire parseUuid b.1.1 = none →
        a.2.id ≠ b.2.id

theorem readInOrder (parseUuid : String → Option Uuid) (eventId : Uuid) (items : List Json) :
    ReadInOrder parseUuid eventId items := by
  obtain ⟨kept, hsub, hread⟩ := exists_sublist_filterMap
    (fun e : Json × ℕ => storedAction parseUuid eventId e.1 e.2) items.zipIdx
  change List.Forall₂ _ kept (normalizeStoredActions parseUuid (some (.arr items)) eventId) at hread
  unfold ReadInOrder
  generalize normalizeStoredActions parseUuid (some (.arr items)) eventId = wires at hread
  have hreads : List.Forall₂ (ReadsAs parseUuid eventId) kept wires :=
    hread.imp fun _ _ h => readsAs_of_storedAction h
  refine ⟨kept, hsub, hreads, ?_⟩
  -- the entries are at different positions, and a legacy id is read off the position
  have hindices : (kept.map Prod.snd).Nodup := by
    refine (hsub.map Prod.snd).nodup ?_
    rw [List.zipIdx_map_snd]
    exact List.nodup_range'
  have hpositions : (kept.zip wires).Pairwise fun a b => a.1.2 ≠ b.1.2 := by
    have hfst : (kept.zip wires).map Prod.fst = kept :=
      List.map_fst_zip (hreads.length_eq.le)
    rw [← hfst, List.map_map] at hindices
    exact List.pairwise_map.mp hindices
  refine hpositions.imp_of_mem fun {a b} ha hb hne hlegacy hlegacy' hid => ?_
  have hid_eq {e} (he : e ∈ kept.zip wires) (hnone : readWire parseUuid e.1.1 = none) :
      e.2.id = legacyId eventId e.1.2 := by
    rcases ((List.forall₂_iff_zip.mp hreads).2 he).read with h | ⟨-, draft, -, h⟩
    · exact absurd (hnone.symm.trans h) (by simp)
    · rw [h]
      rfl
  rw [hid_eq ha hlegacy, hid_eq hb hlegacy'] at hid
  exact hne (legacyId_injective eventId hid)

end Stored

/-- Buttons survive storage, and what is read of any stored array is in order. -/
theorem buttons_survive_storage {parseUuid : String → Option Uuid}
    (hparse : ∀ id : Uuid, parseUuid id.toText = some id) (eventId : Uuid) :
    (∀ (drafts : List NotificationActionDraft) (h : History Admin.Query Admin.Query.Answer)
        (out : List Json), (normalizeActionDrafts drafts).Ends h (.ok out) →
      (generatedIds h).Nodup → Survive parseUuid eventId drafts out) ∧
      ∀ items, ReadInOrder parseUuid eventId items :=
  ⟨fun _ _ _ hends hfresh => survive hparse hends hfresh eventId, readInOrder parseUuid eventId⟩

/-- Two buttons with one target. -/
def sampleDrafts : List NotificationActionDraft :=
  [⟨" Join ", none, .joinRoom, ⟨some "r", none, none, none, none⟩, false⟩,
    ⟨"", some "k", .openRoom, ⟨some "r", none, none, none, none⟩, true⟩]

theorem buttons_survive_storage_sample : Survive Uuid.ofText 9
    sampleDrafts (List.zipWith NotificationActionDraft.toJson sampleDrafts [1, 2]) :=
  (buttons_survive_storage Uuid.ofText_toText 9).1 sampleDrafts ([1, 2].map generated) _
    (by unfold Prog.Ends; decide +kernel) (by decide)

end Ppb.Notifications
