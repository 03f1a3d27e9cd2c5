import Ppb.Rooms.HostMarker

/-!
# Normalising a room twice (`rooms/routes.rs`)

Every room that PMP sends goes through `normalize_room`, which fills in the names of the contract
from those of PMP, and `enrich_room_is_self`, which marks the caller. A room may have gone
through both before.

* `rules_independent`: no rule of `normalize_room` reads a field that a rule writes, so after one
  pass each rule has nothing left to do (`normalizeRoom_of_settled`).
* `room_view_conservative`: the two are idempotent, and leave what PMP sent as it was but for the
  marks.
-/

namespace Ppb.Rooms

variable {key key' : String} {v value : Json} {map : List (String × Json)} {p : Int64}

/-! ## The rules -/

/-- A rule fills in a field if it is missing. -/
structure Rule where
  key : String
  value : List (String × Json) → Option Json

def Rule.apply (map : List (String × Json)) (r : Rule) : List (String × Json) :=
  addMissing r.key r.value map

/-- The rules of `normalize_room`, in its order. -/
def rules : List Rule :=
  [⟨"name", fun m => Fields.get? m "room_id"⟩,
    ⟨"room_uuid", fun m => (Fields.get? m "uuid").or (Fields.get? m "room_id")⟩,
    ⟨"members", fun m => ((((Fields.get? m "players").bind countValue).or
      ((Fields.get? m "player_count").bind countValue)).or
      ((Fields.get? m "users").bind countValue)).map Json.ofInt64⟩,
    ⟨"spectators", fun m => (((Fields.get? m "monitor_count").bind countValue).or
      ((Fields.get? m "monitors").bind countValue)).map Json.ofInt64⟩,
    ⟨"host_id", hostIdField⟩,
    ⟨"current_chart", currentChart⟩,
    ⟨"max_players", fun m => Fields.get? m "max_users"⟩,
    ⟨"persistent", fun m => Fields.get? m "persistent_empty"⟩]

theorem normalizeRoom_obj (map : List (String × Json)) :
    normalizeRoom (.obj map) = .obj (rules.foldl Rule.apply map) := by
  simp only [normalizeRoom, rules, List.foldl_cons, List.foldl_nil, Rule.apply]

/-- The rule has nothing to do. -/
def Rule.Settled (map : List (String × Json)) (r : Rule) : Prop :=
  (Fields.get? map r.key).isSome = true ∨ r.value map = none

theorem Rule.apply_of_settled {r : Rule} (h : r.Settled map) : r.apply map = map := by
  rcases h with h | h
  · rw [Rule.apply, addMissing, if_pos h]
  · exact get?_addMissing_of_none h

/-- A rule has nothing to do, or writes its own field. -/
theorem Rule.apply_cases (map : List (String × Json)) (r : Rule) :
    r.Settled map ∧ r.apply map = map ∨
      Fields.get? map r.key = none ∧ ∃ v, r.apply map = Fields.insert r.key v map := by
  by_cases hkey : (Fields.get? map r.key).isSome = true
  · exact .inl ⟨.inl hkey, Rule.apply_of_settled (.inl hkey)⟩
  · cases hv : r.value map with
    | none => exact .inl ⟨.inr hv, Rule.apply_of_settled (.inr hv)⟩
    | some v =>
      refine .inr ⟨Option.not_isSome_iff_eq_none.mp hkey, v, ?_⟩
      rw [Rule.apply, addMissing, if_neg hkey, hv]

theorem Rule.settled_apply (map : List (String × Json)) (r : Rule) :
    r.Settled (r.apply map) := by
  rcases r.apply_cases map with ⟨hs, h⟩ | ⟨-, v, h⟩
  · rw [h]
    exact hs
  · left
    rw [h, Fields.get?_insert_self]
    rfl

/-- A rule changes no field that is there. -/
theorem Rule.get?_apply {r : Rule} {x : Json} (h : Fields.get? map key = some x) :
    Fields.get? (r.apply map) key = some x := by
  rcases r.apply_cases map with ⟨-, happly⟩ | ⟨hnone, v, happly⟩
  · rw [happly, h]
  · have hne : key ≠ r.key := by
      rintro rfl
      exact absurd (hnone.symm.trans h) (by simp)
    rw [happly, Fields.get?_insert_of_ne hne, h]

/-- No rule reads what a rule writes. -/
theorem rules_independent : ∀ r ∈ rules, ∀ r' ∈ rules, ∀ (v : Json) (map : List (String × Json)),
    r.value (Fields.insert r'.key v map) = r.value map := by
  simp only [rules, List.forall_mem_cons, List.not_mem_nil, false_implies, implies_true, and_true,
    hostIdField, currentChart, ne_eq, String.reduceEq, not_false_eq_true,
    Fields.get?_insert_of_ne]

theorem Rule.Settled.insert {r : Rule} (h : r.Settled map)
    (hvalue : r.value (Fields.insert key v map) = r.value map) :
    r.Settled (Fields.insert key v map) := by
  rcases h with h | h
  · left
    by_cases hkey : r.key = key
    · rw [hkey, Fields.get?_insert_self]
      rfl
    · rw [Fields.get?_insert_of_ne hkey]
      exact h
  · exact .inr (hvalue.trans h)

theorem Rule.Settled.foldl {r : Rule} (hr : r ∈ rules) {rs : List Rule} (hrs : rs ⊆ rules)
    (h : r.Settled map) : r.Settled (rs.foldl Rule.apply map) := by
  induction rs generalizing map with
  | nil => exact h
  | cons r' rs ih =>
    have hr' : r' ∈ rules := hrs List.mem_cons_self
    refine ih (fun _ hx => hrs (List.mem_cons_of_mem _ hx)) ?_
    rcases r'.apply_cases map with ⟨-, happly⟩ | ⟨-, v, happly⟩
    · rw [happly]
      exact h
    · rw [happly]
      exact h.insert (rules_independent r hr r' hr' v map)

theorem settled_foldl {rs : List Rule} (hrs : rs ⊆ rules) (map : List (String × Json)) :
    ∀ r ∈ rs, r.Settled (rs.foldl Rule.apply map) := by
  induction rs generalizing map with
  | nil => simp
  | cons r' rs ih =>
    have htail : rs ⊆ rules := fun _ hx => hrs (List.mem_cons_of_mem _ hx)
    intro r hr
    rcases List.mem_cons.mp hr with heq | hr
    · rw [heq, List.foldl_cons]
      exact (r'.settled_apply map).foldl (hrs List.mem_cons_self) htail
    · exact ih htail _ r hr

/-- A room that every rule is done with stays as it is. -/
theorem normalizeRoom_of_settled (h : ∀ r ∈ rules, r.Settled map) :
    normalizeRoom (.obj map) = .obj map := by
  rw [normalizeRoom_obj]
  generalize rules = rs at h
  induction rs with
  | nil => rfl
  | cons r rs ih =>
    rw [List.foldl_cons, Rule.apply_of_settled (h r List.mem_cons_self)]
    exact ih fun r' hr' => h r' (List.mem_cons_of_mem _ hr')

/-- Normalising changes no field that is there. -/
theorem get?_normalizeRoom_of_some {x : Json} (h : v.get? key = some x) :
    (normalizeRoom v).get? key = some x := by
  cases v with
  | obj map =>
    rw [normalizeRoom_obj]
    generalize rules = rs
    show Fields.get? (rs.foldl Rule.apply map) key = some x
    have hmap : Fields.get? map key = some x := h
    clear h
    induction rs generalizing map with
    | nil => exact hmap
    | cons r rs ih => exact ih _ (Rule.get?_apply hmap)
  | _ => exact h

/-! ## The marks -/

theorem setField_setField (key : String) (a b v : Json) :
    setField key a (setField key b v) = setField key a v := by
  cases v with
  | obj fields => exact congrArg Json.obj (Fields.insert_insert key a b fields)
  | _ => rfl

theorem setField_comm (hne : key ≠ key') (a b v : Json) :
    setField key a (setField key' b v) = setField key' b (setField key a v) := by
  cases v with
  | obj fields => exact congrArg Json.obj (Fields.insert_comm hne a b fields)
  | _ => rfl

theorem idOf_setField (b v : Json) : idOf (setField "is_self" b v) = idOf v := by
  rw [idOf, get?_setField_of_ne (by decide), get?_setField_of_ne (by decide), idOf]

/-- The host with its mark, from the `host` and the `host_id` of a room. -/
def hostMark (p : Int64) : Option Json → Option Json → Option Json
  | some (.obj host), _ =>
    (idOf (.obj host)).map fun hid => setField "is_self" (.bool (hid == p)) (.obj host)
  | some _, _ => none
  | none, hostId => (hostId.bind Json.asI64).map fun hid =>
    .obj [("is_self", .bool (hid == p)), ("user_id", .ofInt64 hid)]

/-- A player with the mark. -/
def markPlayer (p : Int64) (player : Json) : Json :=
  match idOf player with
  | some pid => setField "is_self" (.bool (pid == p)) player
  | none => player

/-- The players with their marks. -/
def playersMark (p : Int64) : Option Json → Option Json
  | some (.arr players) => some (.arr (players.map (markPlayer p)))
  | _ => none

/-- Write a field if there is something to write. -/
def setSome (key : String) (value : Option Json) (v : Json) : Json :=
  value.elim v fun w => setField key w v

theorem markHost_eq (v : Json) (p : Int64) :
    markHost v p = setSome "host" (hostMark p (v.get? "host") (v.get? "host_id")) v := by
  unfold markHost
  cases hhost : v.get? "host" with
  | none =>
    simp only [hostMark]
    cases (v.get? "host_id").bind Json.asI64 <;> rfl
  | some host =>
    cases host with
    | obj host =>
      simp only [hostMark]
      cases idOf (.obj host) <;> rfl
    | _ => rfl

theorem markPlayers_eq (v : Json) (p : Int64) :
    markPlayers v p = setSome "players" (playersMark p (v.get? "players")) v := by
  unfold markPlayers
  cases hplayers : v.get? "players" with
  | none => rfl
  | some players =>
    cases players with
    | arr players => rfl
    | _ => rfl

theorem hostMark_hostMark {host hostId : Option Json} {w : Json}
    (h : hostMark p host hostId = some w) (hostId' : Option Json) :
    hostMark p (some w) hostId' = some w := by
  cases host with
  | none =>
    obtain ⟨hid, -, rfl⟩ := Option.map_eq_some_iff.mp h
    have hidOf : idOf (.obj [("is_self", .bool (hid == p)), ("user_id", .ofInt64 hid)]) =
        some hid := by
      simp [idOf, Json.get?, Fields.get?_cons, Json.asI64_ofInt64]
    rw [hostMark, hidOf]
    simp [setField, Fields.insert]
  | some host =>
    cases host with
    | obj host =>
      obtain ⟨hid, hidOf, rfl⟩ := Option.map_eq_some_iff.mp h
      have hkeep := idOf_setField (.bool (hid == p)) (.obj host)
      have hagain := setField_setField "is_self" (.bool (hid == p)) (.bool (hid == p)) (.obj host)
      rw [setField] at hkeep hagain
      rw [setField, hostMark, hkeep, hidOf]
      exact congrArg some hagain
    | _ => exact absurd h (by simp [hostMark])

theorem markPlayer_markPlayer (p : Int64) (player : Json) :
    markPlayer p (markPlayer p player) = markPlayer p player := by
  unfold markPlayer
  cases hid : idOf player with
  | none => simp only [hid]
  | some pid => simp only [idOf_setField, hid, setField_setField]

theorem playersMark_playersMark {players : Option Json} {w : Json}
    (h : playersMark p players = some w) : playersMark p (some w) = some w := by
  cases players with
  | none => exact absurd h (by simp [playersMark])
  | some players =>
    cases players with
    | arr players =>
      obtain rfl := Option.some.inj h
      simp [playersMark, markPlayer_markPlayer]
    | _ => exact absurd h (by simp [playersMark])

theorem setSome_setSome (key : String) (value : Option Json) (v : Json) :
    setSome key value (setSome key value v) = setSome key value v := by
  cases value with
  | none => rfl
  | some w => exact setField_setField key w w v

theorem setSome_comm (hne : key ≠ key') (a b : Option Json) (v : Json) :
    setSome key a (setSome key' b v) = setSome key' b (setSome key a v) := by
  cases a with
  | none => rfl
  | some a =>
    cases b with
    | none => rfl
    | some b => exact setField_comm hne a b v

theorem get?_setSome_of_ne (hne : key' ≠ key) (value : Option Json) (v : Json) :
    (setSome key value v).get? key' = v.get? key' := by
  cases value with
  | none => rfl
  | some w => exact get?_setField_of_ne hne v w

theorem get?_setSome_self (key : String) (value : Option Json) (map : List (String × Json)) :
    (setSome key value (.obj map)).get? key = value.or (Fields.get? map key) := by
  cases value with
  | none => rfl
  | some w => exact get?_setField_self rfl

/-- Marks are written only to an object. -/
theorem setSome_of_not_obj (h : ∀ map, v ≠ .obj map) (key : String) (value : Option Json) :
    setSome key value v = v := by
  cases value with
  | none => rfl
  | some w =>
    cases v with
    | obj map => exact absurd rfl (h map)
    | _ => rfl

theorem markHost_markHost (v : Json) (p : Int64) : markHost (markHost v p) p = markHost v p := by
  rw [markHost_eq v p]
  cases hmark : hostMark p (v.get? "host") (v.get? "host_id") with
  | none => rw [setSome, Option.elim_none, markHost_eq, hmark, setSome, Option.elim_none]
  | some w =>
    by_cases hobj : ∃ map, v = .obj map
    · obtain ⟨map, rfl⟩ := hobj
      rw [markHost_eq, get?_setSome_self, Option.some_or, hostMark_hostMark hmark,
        setSome_setSome]
    · have hnot : ∀ map, v ≠ .obj map := fun map h => hobj ⟨map, h⟩
      rw [setSome_of_not_obj hnot, markHost_eq, hmark, setSome_of_not_obj hnot]

theorem markPlayers_markPlayers (v : Json) (p : Int64) :
    markPlayers (markPlayers v p) p = markPlayers v p := by
  rw [markPlayers_eq v p]
  cases hmark : playersMark p (v.get? "players") with
  | none => rw [setSome, Option.elim_none, markPlayers_eq, hmark, setSome, Option.elim_none]
  | some w =>
    by_cases hobj : ∃ map, v = .obj map
    · obtain ⟨map, rfl⟩ := hobj
      rw [markPlayers_eq, get?_setSome_self, Option.some_or, playersMark_playersMark hmark,
        setSome_setSome]
    · have hnot : ∀ map, v ≠ .obj map := fun map h => hobj ⟨map, h⟩
      rw [setSome_of_not_obj hnot, markPlayers_eq, hmark, setSome_of_not_obj hnot]

/-- The marks do not read each other. -/
theorem markHost_markPlayers (v : Json) (p : Int64) :
    markHost (markPlayers v p) p = markPlayers (markHost v p) p := by
  have hhost : (markPlayers v p).get? "host" = v.get? "host" := by
    rw [markPlayers_eq, get?_setSome_of_ne (by decide)]
  have hhostId : (markPlayers v p).get? "host_id" = v.get? "host_id" := by
    rw [markPlayers_eq, get?_setSome_of_ne (by decide)]
  have hplayers : (markHost v p).get? "players" = v.get? "players" := by
    rw [markHost_eq, get?_setSome_of_ne (by decide)]
  rw [markHost_eq (markPlayers v p), hhost, hhostId, markPlayers_eq v, markPlayers_eq (markHost v p),
    hplayers, markHost_eq v, setSome_comm (by decide)]

theorem enrichRoomIsSelf_enrichRoomIsSelf (v : Json) (p : Option Int64) :
    enrichRoomIsSelf (enrichRoomIsSelf v p) p = enrichRoomIsSelf v p := by
  cases p with
  | none => rfl
  | some p =>
    show markPlayers (markHost (markPlayers (markHost v p) p) p) p = _
    rw [markHost_markPlayers, markHost_markHost, markPlayers_markPlayers]
    rfl

/-! ## The rules after the marks -/

/-- Of the rules, only that for `host_id` reads the host. -/
theorem value_insert_host (w : Json) :
    ∀ r ∈ rules, r.key ≠ "host_id" → r.value (Fields.insert "host" w map) = r.value map := by
  simp [rules, currentChart, Fields.get?_insert_of_ne]

/-- A mark is no id. -/
theorem hostIdField_insert_mark {host : List (String × Json)} (b : Json)
    (h : Fields.get? map "host" = some (.obj host)) :
    hostIdField (Fields.insert "host" (setField "is_self" b (.obj host)) map) =
      hostIdField map := by
  rw [hostIdField, hostIdField, Fields.get?_insert_self, h, Option.bind_some, Option.bind_some,
    get?_setField_of_ne (by decide), get?_setField_of_ne (by decide)]

/-- The rules read how many players there are. -/
theorem value_insert_players {players : List Json} (f : Json → Json)
    (h : Fields.get? map "players" = some (.arr players)) :
    ∀ r ∈ rules, r.value (Fields.insert "players" (.arr (players.map f)) map) = r.value map := by
  simp [rules, hostIdField, currentChart, Fields.get?_insert_of_ne, h, countValue]

theorem settled_markHost (p : Int64) (h : ∀ r ∈ rules, r.Settled map) :
    ∃ map', markHost (.obj map) p = .obj map' ∧ ∀ r ∈ rules, r.Settled map' := by
  rw [markHost_eq]
  cases hmark : hostMark p (Json.get? (.obj map) "host") (Json.get? (.obj map) "host_id") with
  | none => exact ⟨map, rfl, h⟩
  | some w =>
    refine ⟨Fields.insert "host" w map, rfl, fun r hr => ?_⟩
    by_cases hkey : r.key = "host_id"
    · have hvalue : r.value = hostIdField := by
        revert r
        simp [rules]
      cases hhost : Json.get? (.obj map) "host" with
      | none =>
        -- the host is new: it was made of the `host_id`, which is there
        rw [hhost] at hmark
        obtain ⟨hid, hhostId, rfl⟩ := Option.map_eq_some_iff.mp hmark
        obtain ⟨x, hx, -⟩ := Option.bind_eq_some_iff.mp hhostId
        have hmap : Fields.get? map "host_id" = some x := hx
        left
        rw [hkey, Fields.get?_insert_of_ne (by decide), hmap]
        rfl
      | some host =>
        rw [hhost] at hmark
        cases host with
        | obj host =>
          obtain ⟨hid, -, rfl⟩ := Option.map_eq_some_iff.mp hmark
          refine (h r hr).insert ?_
          rw [hvalue]
          exact hostIdField_insert_mark _ hhost
        | _ => exact absurd hmark (by simp [hostMark])
    · exact (h r hr).insert (value_insert_host w r hr hkey)

theorem settled_markPlayers (p : Int64) (h : ∀ r ∈ rules, r.Settled map) :
    ∃ map', markPlayers (.obj map) p = .obj map' ∧ ∀ r ∈ rules, r.Settled map' := by
  rw [markPlayers_eq]
  cases hplayers : Json.get? (.obj map) "players" with
  | none => exact ⟨map, rfl, h⟩
  | some players =>
    cases players with
    | arr players =>
      exact ⟨_, rfl, fun r hr => (h r hr).insert (value_insert_players _ hplayers r hr)⟩
    | _ => exact ⟨map, rfl, h⟩

/-! ## Both -/

/-- What a client sees of a room: `normalize_room`, then `enrich_room_is_self`
    (rooms/routes.rs:970-973). -/
def roomView (v : Json) (p : Option Int64) : Json := enrichRoomIsSelf (normalizeRoom v) p

theorem roomView_of_not_obj (h : ∀ map, v ≠ .obj map) (p : Option Int64) : roomView v p = v := by
  have hnormal : normalizeRoom v = v := by
    cases v with
    | obj map => exact absurd rfl (h map)
    | _ => rfl
  rw [roomView, hnormal]
  cases p with
  | none => rfl
  | some p =>
    rw [enrichRoomIsSelf, markHost_eq, setSome_of_not_obj h, markPlayers_eq,
      setSome_of_not_obj h]

theorem normalizeRoom_roomView (v : Json) (p : Option Int64) :
    normalizeRoom (roomView v p) = roomView v p := by
  by_cases hobj : ∃ map, v = .obj map
  · obtain ⟨map, rfl⟩ := hobj
    have hsettled := settled_foldl (List.Subset.refl rules) map
    rw [roomView, normalizeRoom_obj]
    cases p with
    | none => exact normalizeRoom_of_settled hsettled
    | some p =>
      obtain ⟨map', hhost, hsettled'⟩ := settled_markHost p hsettled
      obtain ⟨map'', hplayers, hsettled''⟩ := settled_markPlayers p hsettled'
      rw [enrichRoomIsSelf, hhost, hplayers]
      exact normalizeRoom_of_settled hsettled''
  · have hnot : ∀ map, v ≠ .obj map := fun map h => hobj ⟨map, h⟩
    rw [roomView_of_not_obj hnot]
    cases v with
    | obj map => exact absurd rfl (hnot map)
    | _ => rfl

theorem roomView_roomView (v : Json) (p : Option Int64) :
    roomView (roomView v p) p = roomView v p := by
  rw [roomView, normalizeRoom_roomView, roomView, enrichRoomIsSelf_enrichRoomIsSelf]

/-! ## What a room keeps -/

/-- `y` is `x`, or the object `x` with an `is_self` of its own. -/
def Marked (x y : Json) : Prop :=
  y = x ∨ x.asObject.isSome = true ∧ ∃ b, y = setField "is_self" (.bool b) x

/-- How the field `key` of a room may change: a host is marked, players are marked, any other
    field stays. -/
def Kept (key : String) (x y : Json) : Prop :=
  if key = "host" then Marked x y
  else if key = "players" then
    y = x ∨ ∃ players marked, x = .arr players ∧ y = .arr marked ∧
      List.Forall₂ Marked players marked
  else y = x

theorem marked_markPlayer (p : Int64) (player : Json) : Marked player (markPlayer p player) := by
  unfold markPlayer
  cases hid : idOf player with
  | none => exact .inl rfl
  | some pid =>
    refine .inr ⟨?_, _, rfl⟩
    cases player with
    | obj fields => rfl
    | _ => exact absurd hid (by simp [idOf, Json.get?])

theorem kept_markHost {x : Json} (h : v.get? "host" = some x) (p : Int64) :
    ∃ y, (markHost v p).get? "host" = some y ∧ Marked x y := by
  rw [markHost_eq, h]
  cases v with
  | obj map =>
    rw [get?_setSome_self]
    cases hmark : hostMark p (some x) (Json.get? (.obj map) "host_id") with
    | none => exact ⟨x, h, .inl rfl⟩
    | some w =>
      refine ⟨w, rfl, ?_⟩
      cases x with
      | obj host =>
        obtain ⟨hid, -, rfl⟩ := Option.map_eq_some_iff.mp hmark
        exact .inr ⟨rfl, _, rfl⟩
      | _ => exact absurd hmark (by simp [hostMark])
  | _ => exact absurd h (by simp [Json.get?])

theorem kept_markPlayers {x : Json} (h : v.get? "players" = some x) (p : Int64) :
    ∃ y, (markPlayers v p).get? "players" = some y ∧ Kept "players" x y := by
  rw [markPlayers_eq, h]
  cases v with
  | obj map =>
    rw [get?_setSome_self]
    cases x with
    | arr players =>
      refine ⟨.arr (players.map (markPlayer p)), rfl, .inr ⟨players, _, rfl, rfl, ?_⟩⟩
      rw [List.forall₂_map_right_iff, List.forall₂_same]
      exact fun player _ => marked_markPlayer p player
    | _ => exact ⟨_, h, .inl rfl⟩
  | _ => exact absurd h (by simp [Json.get?])

/-- The marks keep what they do not mark. -/
theorem kept_enrichRoomIsSelf {x : Json} (h : v.get? key = some x) (p : Option Int64) :
    ∃ y, (enrichRoomIsSelf v p).get? key = some y ∧ Kept key x y := by
  cases p with
  | none =>
    refine ⟨x, h, ?_⟩
    unfold Kept
    split_ifs
    · exact .inl rfl
    · exact .inl rfl
    · rfl
  | some p =>
    rw [enrichRoomIsSelf]
    by_cases hhost : key = "host"
    · subst hhost
      rw [markPlayers_eq, get?_setSome_of_ne (by decide)]
      exact kept_markHost h p
    · have hkeep : (markHost v p).get? key = some x := by
        rw [markHost_eq, get?_setSome_of_ne hhost, h]
      by_cases hplayers : key = "players"
      · subst hplayers
        exact kept_markPlayers hkeep p
      · refine ⟨x, ?_, ?_⟩
        · rw [markPlayers_eq, get?_setSome_of_ne hplayers, hkeep]
        · rw [Kept, if_neg hhost, if_neg hplayers]

/-- A host that was not there is made of the `host_id`. -/
theorem host_of_missing {host : Json} (hnone : v.get? "host" = none) {p : Option Int64}
    (h : (roomView v p).get? "host" = some host) :
    ∃ p' hid, p = some p' ∧ (v.get? "host_id").bind Json.asI64 = some hid ∧
      host = .obj [("is_self", .bool (hid == p')), ("user_id", .ofInt64 hid)] := by
  obtain ⟨hnormal, hnormalId⟩ := get?_normalizeRoom v
  cases p with
  | none =>
    have hhost : (normalizeRoom v).get? "host" = some host := h
    rw [hnormal, hnone] at hhost
    exact absurd hhost (by simp)
  | some p =>
    rw [roomView, enrichRoomIsSelf, markPlayers_eq, get?_setSome_of_ne (by decide), markHost_eq,
      hnormal, hnone, hnormalId hnone] at h
    cases hmark : hostMark p none (v.get? "host_id") with
    | none =>
      rw [hmark, setSome, Option.elim_none, hnormal, hnone] at h
      exact absurd h (by simp)
    | some w =>
      have hw : w = host := by
        cases hv : normalizeRoom v with
        | obj map =>
          rw [hmark, hv, get?_setSome_self] at h
          exact Option.some.inj h
        | _ =>
          rw [hmark, hv] at h
          exact absurd h (by simp [setSome, setField, Json.get?])
      obtain ⟨hid, hhostId, rfl⟩ := Option.map_eq_some_iff.mp hmark
      exact ⟨p, hid, rfl, hhostId, hw.symm⟩

/-- Normalising and marking twice is doing it once, and what PMP sent stays but for the marks. -/
theorem room_view_conservative (v : Json) (p : Option Int64) :
    roomView (roomView v p) p = roomView v p ∧
      (∀ key x, v.get? key = some x → ∃ y, (roomView v p).get? key = some y ∧ Kept key x y) ∧
      (v.get? "host" = none → ∀ host, (roomView v p).get? "host" = some host →
        ∃ p' hid, p = some p' ∧ (v.get? "host_id").bind Json.asI64 = some hid ∧
          host = .obj [("is_self", .bool (hid == p')), ("user_id", .ofInt64 hid)]) ∧
      ((∀ map, v ≠ .obj map) → roomView v p = v) ∧
      ∀ key x, v.get? key = some x → (normalizeRoom v).get? key = some x :=
  ⟨roomView_roomView v p,
    fun _ _ h => kept_enrichRoomIsSelf (get?_normalizeRoom_of_some h) p,
    fun hnone _ h => host_of_missing hnone h,
    fun h => roomView_of_not_obj h p,
    fun _ _ h => get?_normalizeRoom_of_some h⟩

/-- A room with a `host_id` and players, one of them marked already. -/
def plainRoom : Json :=
  .obj [("host_id", .ofInt64 7), ("players", .arr [.obj [("id", .ofInt64 7)],
    .obj [("id", .ofInt64 8), ("is_self", .bool true)]]), ("room_id", .str "r")]

/-- There the host is created, and `players` keeps its objects but for the marks. -/
theorem room_view_conservative_plain :
    (∃ y, (roomView plainRoom (some 7)).get? "players" = some y ∧
        Kept "players" (.arr [.obj [("id", .ofInt64 7)],
          .obj [("id", .ofInt64 8), ("is_self", .bool true)]]) y) ∧
      (roomView plainRoom (some 7)).get? "host" =
        some (.obj [("is_self", .bool true), ("user_id", .ofInt64 7)]) ∧
      ∃ p' hid, some 7 = some p' ∧ (plainRoom.get? "host_id").bind Json.asI64 = some hid ∧
        Json.obj [("is_self", .bool true), ("user_id", .ofInt64 7)] =
          .obj [("is_self", .bool (hid == p')), ("user_id", .ofInt64 hid)] :=
  have hhost : (roomView plainRoom (some 7)).get? "host" =
      some (.obj [("is_self", .bool true), ("user_id", .ofInt64 7)]) := by decide +kernel
  ⟨(room_view_conservative plainRoom (some 7)).2.1 _ _ (by decide +kernel), hhost,
    (room_view_conservative plainRoom (some 7)).2.2.1 (by decide +kernel) _ hhost⟩

end Ppb.Rooms
