import Ppb.Rooms.Routes

/-!
# The host of a room (`rooms/routes.rs`, `rooms/service.rs`)

Three functions read the host out of the answer to `room.info`. `RoomService::host_id`,
behind `verify_real_host`, takes `host_id` or a `host` that is a number, and keeps 32
bits of it. `enrich_room_is_self` takes the `user_id` or `id` of a `host` that is an
object, `host_id` only where there is no `host`, and compares 64 bits. `normalize_room`,
which runs before it, writes a `host_id` from a `host` object; the first function
does not see what it writes.

* `get?_normalizeRoom`: what normalising leaves to the marker.
* `marker_agrees_iff`: the payloads and callers for which the marker says what
  `verify_real_host` does.
-/

namespace Ppb.Rooms

open Actions

/-! ## `normalize_room` -/

/-- `count_value` (rooms/routes.rs:1087-1093). -/
def countValue : Json → Option Int64
  | .arr items => some (Int64.ofNat items.length)
  | .num n => (Json.num n).asI64
  | _ => none

/-- `if !map.contains_key(key) { if let Some(value) = .. { map.insert(key, value); } }`. -/
def addMissing (key : String) (value : List (String × Json) → Option Json)
    (map : List (String × Json)) : List (String × Json) :=
  if (Fields.get? map key).isSome then map
  else match value map with
    | some v => Fields.insert key v map
    | none => map

/-- The `host_id` of a `host` object. -/
def hostIdField (map : List (String × Json)) : Option Json :=
  (Fields.get? map "host").bind fun host => (host.get? "user_id").or (host.get? "id")

/-- The `current_chart` of `chart_id` and `chart_name`, unless both are null or missing. -/
def currentChart (map : List (String × Json)) : Option Json :=
  let chartId := (Fields.get? map "chart_id").getD .null
  let chartName := (Fields.get? map "chart_name").getD .null
  if chartId = .null ∧ chartName = .null then none
  else some (.obj [("id", chartId), ("name", chartName)])

/-- `normalize_room` (rooms/routes.rs:1015-1084). -/
def normalizeRoom : Json → Json
  | .obj map =>
    let map := addMissing "name" (fun m => Fields.get? m "room_id") map
    let map := addMissing "room_uuid"
      (fun m => (Fields.get? m "uuid").or (Fields.get? m "room_id")) map
    let map := addMissing "members" (fun m =>
      ((((Fields.get? m "players").bind countValue).or
        ((Fields.get? m "player_count").bind countValue)).or
        ((Fields.get? m "users").bind countValue)).map Json.ofInt64) map
    let map := addMissing "spectators" (fun m =>
      (((Fields.get? m "monitor_count").bind countValue).or
        ((Fields.get? m "monitors").bind countValue)).map Json.ofInt64) map
    let map := addMissing "host_id" hostIdField map
    let map := addMissing "current_chart" currentChart map
    let map := addMissing "max_players" (fun m => Fields.get? m "max_users") map
    .obj (addMissing "persistent" (fun m => Fields.get? m "persistent_empty") map)
  | room => room

/-! ## `enrich_room_is_self` -/

/-- The id of a host or a player. -/
def idOf (v : Json) : Option Int64 :=
  ((v.get? "user_id").bind Json.asI64).or ((v.get? "id").bind Json.asI64)

/-- `v[key] = value` on an object. -/
def setField (key : String) (value : Json) : Json → Json
  | .obj fields => .obj (Fields.insert key value fields)
  | v => v

/-- The mark on the host (rooms/routes.rs:922-936). -/
def markHost (value : Json) (myPhira : Int64) : Json :=
  match value.get? "host" with
  | some (.obj host) =>
    match idOf (.obj host) with
    | some hid =>
      setField "host" (.obj (Fields.insert "is_self" (.bool (hid == myPhira)) host)) value
    | none => value
  | some _ => value
  | none =>
    match (value.get? "host_id").bind Json.asI64 with
    | some hid =>
      setField "host" (.obj [("is_self", .bool (hid == myPhira)), ("user_id", .ofInt64 hid)]) value
    | none => value

/-- The marks on the players (rooms/routes.rs:937-947). -/
def markPlayers (value : Json) (myPhira : Int64) : Json :=
  match value.get? "players" with
  | some (.arr players) =>
    setField "players" (.arr (players.map fun p =>
      match idOf p with
      | some pid => setField "is_self" (.bool (pid == myPhira)) p
      | none => p)) value
  | _ => value

/-- `enrich_room_is_self` (rooms/routes.rs:920-948). -/
def enrichRoomIsSelf (value : Json) : Option Int64 → Json
  | none => value
  | some myPhira => markPlayers (markHost value myPhira) myPhira

/-! ## What reaches the marker -/

/-- `value.host.is_self` is true. -/
def isSelf (value : Json) : Bool :=
  ((value.get? "host").bind fun host => host.get? "is_self") == some (.bool true)

theorem get?_addMissing_of_ne {key key' : String} (hne : key' ≠ key)
    (value : List (String × Json) → Option Json) (map : List (String × Json)) :
    Fields.get? (addMissing key value map) key' = Fields.get? map key' := by
  unfold addMissing
  split_ifs
  · rfl
  · split
    · rw [Fields.get?_insert_of_ne hne]
    · rfl

theorem get?_addMissing_of_none {key : String} {value : List (String × Json) → Option Json}
    {map : List (String × Json)} (hnone : value map = none) : addMissing key value map = map := by
  rw [addMissing, hnone]
  split_ifs <;> rfl

/-- Normalising does not touch `host`, and without one it does not touch `host_id`. -/
theorem get?_normalizeRoom (info : Json) :
    (normalizeRoom info).get? "host" = info.get? "host" ∧
      (info.get? "host" = none → (normalizeRoom info).get? "host_id" = info.get? "host_id") := by
  cases info with
  | obj map =>
    simp only [normalizeRoom, Json.get?]
    constructor
    · simp only [get?_addMissing_of_ne, ne_eq, String.reduceEq, not_false_eq_true]
    · intro hhost
      rw [get?_addMissing_of_ne (by decide), get?_addMissing_of_ne (by decide),
        get?_addMissing_of_ne (by decide), get?_addMissing_of_none]
      · rw [get?_addMissing_of_ne (by decide), get?_addMissing_of_ne (by decide),
          get?_addMissing_of_ne (by decide), get?_addMissing_of_ne (by decide)]
      · rw [hostIdField, get?_addMissing_of_ne (by decide), get?_addMissing_of_ne (by decide),
          get?_addMissing_of_ne (by decide), get?_addMissing_of_ne (by decide), hhost]
        rfl
  | _ => exact ⟨rfl, fun _ => rfl⟩

theorem get?_setField_self {key : String} {v value : Json} {fields : List (String × Json)}
    (h : v = .obj fields) : (setField key value v).get? key = some value := by
  rw [h]
  exact Fields.get?_insert_self _ _ _

theorem get?_setField_of_ne {key key' : String} (hne : key' ≠ key) (v value : Json) :
    (setField key value v).get? key' = v.get? key' := by
  cases v with
  | obj fields => exact Fields.get?_insert_of_ne hne _ _
  | _ => rfl

/-- The marks on the players leave the host alone. -/
theorem isSelf_markPlayers (value : Json) (myPhira : Int64) :
    isSelf (markPlayers value myPhira) = isSelf value := by
  unfold markPlayers
  split
  · rw [isSelf, get?_setField_of_ne (by decide), isSelf]
  · rfl

/-! ## Who is the host -/

/-- `o` is an integer with the low 32 bits of `phira`. -/
def Narrowed (o : Option Int64) (phira : Int64) : Prop :=
  ∃ id, o = some id ∧ id.toInt32 = phira.toInt32

/-- The marker and the enforcement agree on `phira` for a payload of `room.info`. -/
def MarkerAgrees (info : Json) (phira : Int64) : Prop :=
  hostIdOf info = some phira.toInt32 ↔
    isSelf (enrichRoomIsSelf (normalizeRoom info) (some phira)) = true

/-- The payloads and callers for which both say the same, by what `host` is:
    * missing: `host_id` does not differ from `phira` in the high bits only;
    * an object with an id: this id is `phira` exactly if `host_id` has its low bits;
    * an object without: `host_id` has not, unless the object is marked already;
    * anything else: neither `host_id` nor a `host` that is a number has. -/
def OneHost (info : Json) (phira : Int64) : Prop :=
  let hostId := (info.get? "host_id").bind Json.asI64
  match info.get? "host" with
  | none => ∀ id, hostId = some id → id.toInt32 = phira.toInt32 → id = phira
  | some (.obj host) =>
    match idOf (.obj host) with
    | some id => id = phira ↔ Narrowed hostId phira
    | none => Fields.get? host "is_self" = some (.bool true) ↔ Narrowed hostId phira
  | some host => ¬ Narrowed (hostId.or host.asI64) phira

variable {info : Json} {phira : Int64}

theorem hostIdOf_eq_some : hostIdOf info = some phira.toInt32 ↔
    Narrowed (((info.get? "host_id").bind Json.asI64).or
      ((info.get? "host").bind Json.asI64)) phira := by
  rw [hostIdOf, ← Option.map_or, Option.map_eq_some_iff]
  rfl

theorem isSelf_iff {value : Json} {host : List (String × Json)}
    (h : value.get? "host" = some (.obj host)) :
    isSelf value = true ↔ Fields.get? host "is_self" = some (.bool true) := by
  rw [isSelf, h, beq_iff_eq]
  rfl

/-- The marker on a room without `host`. -/
theorem isSelf_of_no_host (h : info.get? "host" = none) :
    isSelf (markHost info phira) = true ↔ (info.get? "host_id").bind Json.asI64 = some phira := by
  rw [markHost, h]
  cases hid : (info.get? "host_id").bind Json.asI64 with
  | none => simp [isSelf, h]
  | some id =>
    cases info with
    | obj fields =>
      rw [isSelf_iff (get?_setField_self rfl), Fields.get?_cons, if_pos rfl]
      simp
    | _ => cases hid

/-- The marker on a room whose `host` is an object. -/
theorem isSelf_of_obj {host : List (String × Json)} (h : info.get? "host" = some (.obj host)) :
    isSelf (markHost info phira) = true ↔
      match idOf (.obj host) with
      | some id => id = phira
      | none => Fields.get? host "is_self" = some (.bool true) := by
  rw [markHost, h]
  cases hid : idOf (.obj host) with
  | none =>
    simp only [hid]
    exact isSelf_iff h
  | some id =>
    cases info with
    | obj fields =>
      simp only [hid]
      rw [isSelf_iff (get?_setField_self rfl), Fields.get?_insert_self]
      simp
    | _ => cases h

/-- There is no mark on a `host` that is not an object. -/
theorem isSelf_of_not_obj {host : Json} (h : info.get? "host" = some host)
    (hobj : ∀ fields, host ≠ .obj fields) : isSelf (markHost info phira) = false := by
  have hmark : markHost info phira = info := by
    rw [markHost, h]
    cases host with
    | obj fields => exact absurd rfl (hobj fields)
    | _ => rfl
  rw [hmark, isSelf, h]
  cases host with
  | obj fields => exact absurd rfl (hobj fields)
  | _ => rfl

theorem marker_agrees_iff (info : Json) (phira : Int64) :
    MarkerAgrees info phira ↔ OneHost info phira := by
  obtain ⟨hhost, hid⟩ := get?_normalizeRoom info
  rw [MarkerAgrees, enrichRoomIsSelf, isSelf_markPlayers, hostIdOf_eq_some, OneHost]
  cases h : info.get? "host" with
  | none =>
    rw [isSelf_of_no_host (hhost.trans h), hid h]
    simp only [Option.bind_none, Option.or_none]
    constructor
    · intro hagree id hsome hlow
      exact Option.some.inj (hsome.symm.trans (hagree.mp ⟨id, hsome, hlow⟩))
    · intro hone
      constructor
      · rintro ⟨id, hsome, hlow⟩
        rw [hsome, hone id hsome hlow]
      · exact fun hsome => ⟨phira, hsome, rfl⟩
  | some host =>
    cases host with
    | obj fields =>
      rw [isSelf_of_obj (hhost.trans h)]
      simp only [Option.bind_some, Json.asI64, Option.or_none]
      cases idOf (.obj fields) with
      | none => exact iff_comm
      | some id => exact iff_comm
    | _ =>
      rw [isSelf_of_not_obj (hhost.trans h) (by simp)]
      simp only [Option.bind_some, Bool.false_eq_true, iff_false]

/-- The room whose host is player 1, seen by the player whose id is 2^32 higher. -/
theorem not_marker_agrees :
    ¬ MarkerAgrees (.obj [("host_id", .num (.posInt 1))]) 4294967297 := by
  intro h
  exact absurd (h.mp (by decide)) (by decide)

end Ppb.Rooms
