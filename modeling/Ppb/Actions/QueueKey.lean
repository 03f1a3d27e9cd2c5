import Ppb.Actions.Target
import Ppb.Common.JsonText
import Ppb.Common.Replace

/-!
# Queues of rooms and users

The broker has one queue for each key, and `resolveQueueKey` fills a template with what
the arguments say: `room:` with the `room_id`, `user:` with the `user_id`. The target of a
task is what PMP gets under that name once the arguments are normalised.

* `queue_room`, `queue_user`: the keys that can come out.
* `queue_sound`: which tasks have the queue of their target. A task about a user always
  has. A task about a room has if its `room_id` is a string in which the second
  substitution finds nothing; otherwise it shares the queue of another room, or leaves
  the queue of its own.
-/

namespace Ppb.Actions

/-- What a queue is for. -/
inductive Subject where
  | room
  | user
  deriving DecidableEq, Repr

/-- The argument that names it. -/
def Subject.param : Subject → String
  | .room => "room_id"
  | .user => "user_id"

/-- A task of a registered action whose queue key is a template. -/
structure QueuedTask where
  action : ActionDescriptor
  registered : action ∈ seedActions
  templated : action.queueKey.toList.contains '\x7b' = true
  args : Json
  wellFormed : args.WellFormed

namespace QueuedTask

variable {t u : QueuedTask}

def kind (t : QueuedTask) : Subject := if t.action.queueKey = roomKey then .room else .user

/-- The key of the broker's queue for the task. -/
def queue (t : QueuedTask) : String := resolveQueueKey t.action t.args

/-- The room or the user that PMP gets. -/
def target (t : QueuedTask) : Option Json :=
  (normalizeOpenudsArgs t.action.id t.args).get? t.kind.param

/-- Two tasks share a queue exactly if they have one target. -/
def Agrees (t u : QueuedTask) : Prop := t.queue = u.queue ↔ t.kind = u.kind ∧ t.target = u.target

/-- A task about a user; or a room named by a string, and no `user_id` to be put into it. -/
def Plain (t : QueuedTask) : Prop :=
  match t.kind with
  | .user => True
  | .room => ∃ roomId, t.args.get? "room_id" = some (.str roomId) ∧
      (t.args.get? "user_id" = none ∨ ¬ "\x7buser_id\x7d".toList <:+: roomId.toList)

/-! ## Templates -/

theorem templates : ∀ a ∈ seedActions, a.queueKey.toList.contains '\x7b' = true →
    a.queueKey = roomKey ∨ a.queueKey = userKey ∧ playerTarget.contains a.id = false := by
  decide

theorem queueKey_of_room (h : t.kind = .room) : t.action.queueKey = roomKey := by
  by_contra hne
  rw [kind, if_neg hne] at h
  cases h

theorem queueKey_of_user (h : t.kind = .user) :
    t.action.queueKey = userKey ∧ playerTarget.contains t.action.id = false := by
  have hne : t.action.queueKey ≠ roomKey := by
    intro hroom
    rw [kind, if_pos hroom] at h
    cases h
  exact (templates t.action t.registered t.templated).resolve_left hne

theorem target_of_room (h : t.kind = .room) : t.target = t.args.get? "room_id" := by
  rw [target, h]
  exact get?_normalizeOpenudsArgs_of_ne (by decide) (by decide) _ _

/-- The actions on users are not among those whose player may be a `phira_id`. -/
theorem target_of_user (h : t.kind = .user) : t.target = t.args.get? "user_id" := by
  have hplayer : (!playerTarget.contains t.action.id) = true := by
    rw [(queueKey_of_user h).2]
    rfl
  unfold target normalizeOpenudsArgs
  rw [h, if_pos hplayer]
  rfl

/-! ## Keys -/

/-- The user in a key. -/
def userText (args : Json) : List Char :=
  match args.get? "user_id" with
  | some userId => userId.render.toList
  | none => "\x7buser_id\x7d".toList

/-- The room in a key, before the second substitution. -/
def roomName (args : Json) : List Char :=
  match (args.get? "room_id").bind Json.asStr with
  | some roomId => roomId.toList
  | none => "\x7broom_id\x7d".toList

/-- The room in a key. -/
def roomText (args : Json) : List Char :=
  match args.get? "user_id" with
  | some userId =>
    Text.replaceFrom "\x7buser_id\x7d".toList userId.render.toList 0 (roomName args)
  | none => roomName args

/-- The first substitution, into either template. -/
theorem replaceAll_userKey (roomId : String) :
    Text.replaceAll userKey "\x7broom_id\x7d" roomId = userKey := rfl

theorem replaceAll_roomKey (roomId : String) :
    Text.replaceAll roomKey "\x7broom_id\x7d" roomId =
      String.ofList ("room:".toList ++ roomId.toList) := by
  rw [Text.replaceAll]
  show String.ofList ("room:".toList ++ (roomId.toList ++ [])) = _
  rw [List.append_nil]

/-- The second, into what the first has made of them. -/
theorem toList_replaceAll_userKey (userId : String) :
    (Text.replaceAll userKey "\x7buser_id\x7d" userId).toList =
      "user:".toList ++ userId.toList := by
  rw [Text.replaceAll, String.toList_ofList]
  show "user:".toList ++ (userId.toList ++ []) = _
  rw [List.append_nil]

theorem toList_replaceAll_room (name : List Char) (userId : String) :
    (Text.replaceAll (String.ofList ("room:".toList ++ name)) "\x7buser_id\x7d" userId).toList =
      "room:".toList ++ Text.replaceFrom "\x7buser_id\x7d".toList userId.toList 0 name := by
  simp only [Text.replaceAll, String.toList_ofList]
  rfl

theorem queue_user (h : t.kind = .user) :
    t.queue.toList = "user:".toList ++ userText t.args := by
  simp only [queue, resolveQueueKey, (queueKey_of_user h).1, userText, replaceAll_userKey]
  rw [if_neg (by decide)]
  cases t.args.get? "user_id" with
  | none =>
    have hkey : userKey.toList = "user:".toList ++ "\x7buser_id\x7d".toList := rfl
    cases (t.args.get? "room_id").bind Json.asStr <;> exact hkey
  | some userId =>
    cases (t.args.get? "room_id").bind Json.asStr <;> exact toList_replaceAll_userKey _

theorem queue_room (h : t.kind = .room) :
    t.queue.toList = "room:".toList ++ roomText t.args := by
  simp only [queue, resolveQueueKey, queueKey_of_room h, roomText, roomName, replaceAll_roomKey]
  rw [if_neg (by decide)]
  have hkey : roomKey = String.ofList ("room:".toList ++ "\x7broom_id\x7d".toList) := rfl
  cases t.args.get? "user_id" with
  | none =>
    cases (t.args.get? "room_id").bind Json.asStr with
    | none => rfl
    | some roomId => exact String.toList_ofList
  | some userId =>
    cases (t.args.get? "room_id").bind Json.asStr with
    | none => exact hkey ▸ toList_replaceAll_room _ _
    | some roomId => exact toList_replaceAll_room _ _

/-! ## Users -/

/-- A JSON value does not read like the placeholder of a user. -/
theorem render_ne_placeholder {v : Json} (hv : v.WellFormed) :
    v.render.toList ≠ "\x7buser_id\x7d".toList := by
  intro heq
  have hlit : "\x7buser_id\x7d".toList = '\x7b' :: 'u' :: "ser_id\x7d".toList := by decide
  obtain ⟨c, r, hc, hctor⟩ := Json.exists_render_eq_cons hv
  rw [heq, hlit] at hc
  have hobj : v.ctorIdx = 5 := by
    rw [← hctor, ← (List.cons.inj hc).1]
    decide
  cases v with
  | obj fields =>
    rw [Json.toList_render_obj, hlit] at heq
    have htail := (List.cons.inj heq).2
    cases fields with
    | nil => exact absurd (List.cons.inj htail).1 (by decide)
    | cons f fields =>
      rw [separated_cons_append, Json.fieldText, Json.toList_renderString] at htail
      exact absurd (List.cons.inj htail).1 (by decide)
  | _ => cases hobj

theorem userText_inj {a b : Json} (ha : a.WellFormed) (hb : b.WellFormed) :
    userText a = userText b ↔ a.get? "user_id" = b.get? "user_id" := by
  constructor
  · intro h
    cases hu : a.get? "user_id" with
    | none =>
      cases hw : b.get? "user_id" with
      | none => rfl
      | some w =>
        rw [userText, userText, hu, hw] at h
        exact absurd h.symm (render_ne_placeholder (hb.get? hw))
    | some v =>
      cases hw : b.get? "user_id" with
      | none =>
        rw [userText, userText, hu, hw] at h
        exact absurd h (render_ne_placeholder (ha.get? hu))
      | some w =>
        rw [userText, userText, hu, hw] at h
        rw [Json.render_injective (ha.get? hu) (hb.get? hw) (String.toList_inj.mp h)]
  · intro h
    rw [userText, userText, h]

/-! ## Rooms -/

/-- The arguments name a room by a string that the second substitution leaves alone. -/
theorem roomText_of_plain {args : Json} {roomId : String}
    (hroom : args.get? "room_id" = some (.str roomId))
    (huser : args.get? "user_id" = none ∨ ¬ "\x7buser_id\x7d".toList <:+: roomId.toList) :
    roomText args = roomId.toList := by
  have hname : roomName args = roomId.toList := by
    rw [roomName, hroom]
    rfl
  rw [roomText, hname]
  rcases huser with hnone | hnot
  · rw [hnone]
  · split
    · exact Text.replaceFrom_of_absent hnot
    · rfl

/-- A `room_id` that is not a string leaves the placeholder in the key. -/
theorem roomText_of_not_str {args : Json}
    (hroom : ∀ roomId, args.get? "room_id" ≠ some (.str roomId)) :
    roomText args = "\x7broom_id\x7d".toList := by
  have hname : roomName args = "\x7broom_id\x7d".toList := by
    rw [roomName]
    cases hstr : (args.get? "room_id").bind Json.asStr with
    | none => rfl
    | some roomId => exact absurd (Json.bind_asStr_eq_some.mp hstr) (hroom roomId)
  rw [roomText, hname]
  split
  · exact Text.replaceFrom_of_absent (by decide)
  · rfl

/-- A placeholder in the name is taken for the template's. -/
theorem roomText_ne {args : Json} {roomId : String} {userId : Json} (hargs : args.WellFormed)
    (hroom : args.get? "room_id" = some (.str roomId))
    (huser : args.get? "user_id" = some userId)
    (hin : "\x7buser_id\x7d".toList <:+: roomId.toList) :
    roomText args ≠ roomId.toList := by
  have hname : roomName args = roomId.toList := by
    rw [roomName, hroom]
    rfl
  rw [roomText, hname, huser]
  exact Text.replaceFrom_ne_self (by decide) (render_ne_placeholder (hargs.get? huser)) hin

/-! ## Which tasks have the queue of their target -/

theorem queue_eq_iff_of_room (ht : t.kind = .room) (hu : u.kind = .room) :
    t.queue = u.queue ↔ roomText t.args = roomText u.args := by
  rw [← String.toList_inj, queue_room ht, queue_room hu, List.append_cancel_left_eq]

theorem agrees_of_plain (ht : t.Plain) (hu : u.Plain) : t.Agrees u := by
  unfold Agrees
  cases hkt : t.kind with
  | room =>
    cases hku : u.kind with
    | room =>
      simp only [Plain, hkt, hku] at ht hu
      obtain ⟨r, hr, hplain⟩ := ht
      obtain ⟨r', hr', hplain'⟩ := hu
      rw [queue_eq_iff_of_room hkt hku, roomText_of_plain hr hplain,
        roomText_of_plain hr' hplain', target_of_room hkt, target_of_room hku, hr, hr',
        String.toList_inj]
      simp
    | user =>
      rw [← String.toList_inj, queue_room hkt, queue_user hku]
      constructor
      · intro h
        exact absurd (List.cons.inj h).1 (by decide)
      · intro h
        exact absurd h.1 (by decide)
  | user =>
    cases hku : u.kind with
    | room =>
      rw [← String.toList_inj, queue_user hkt, queue_room hku]
      constructor
      · intro h
        exact absurd (List.cons.inj h).1 (by decide)
      · intro h
        exact absurd h.1 (by decide)
    | user =>
      rw [← String.toList_inj, queue_user hkt, queue_user hku, List.append_cancel_left_eq,
        userText_inj t.wellFormed u.wellFormed, target_of_user hkt, target_of_user hku]
      simp

/-- `room.kick` with these arguments. -/
def roomKick (args : Json) (hargs : args.WellFormed) : QueuedTask where
  action := seedActions.head (by decide)
  registered := List.head_mem _
  templated := by decide
  args := args
  wellFormed := hargs

/-- A task about a room and about no player. -/
def ofRoom (roomId : String) : QueuedTask := roomKick (.obj [("room_id", .str roomId)]) (by simp)

theorem plain_ofRoom (roomId : String) : (ofRoom roomId).Plain := ⟨roomId, rfl, .inl rfl⟩

theorem queue_sound (t : QueuedTask) : t.Plain ↔ ∀ u : QueuedTask, u.Plain → t.Agrees u := by
  refine ⟨fun ht u hu => agrees_of_plain ht hu, fun h => ?_⟩
  by_contra hplain
  have hkt : t.kind = .room := by
    cases hk : t.kind with
    | room => rfl
    | user =>
      rw [Plain, hk] at hplain
      exact absurd trivial hplain
  have hkind : ∀ roomId, (ofRoom roomId).kind = .room := fun _ => rfl
  have hagree : ∀ roomId : String, roomText t.args = roomId.toList ↔
      t.args.get? "room_id" = some (.str roomId) := by
    intro roomId
    have hroom := h (ofRoom roomId) (plain_ofRoom roomId)
    have hofRoom : roomText (ofRoom roomId).args = roomId.toList :=
      roomText_of_plain rfl (.inl rfl)
    rw [Agrees, queue_eq_iff_of_room hkt (hkind roomId), target_of_room hkt,
      target_of_room (hkind roomId), hkt, hkind,
      hofRoom] at hroom
    rw [hroom]
    exact and_iff_right rfl
  simp only [Plain, hkt, not_exists, not_and, not_or, not_not] at hplain
  by_cases hstr : ∃ roomId, t.args.get? "room_id" = some (.str roomId)
  · -- the room of that name, without a player, has another queue
    obtain ⟨roomId, hroom⟩ := hstr
    obtain ⟨huser, hin⟩ := hplain roomId hroom
    obtain ⟨userId, huser⟩ := Option.ne_none_iff_exists'.mp huser
    exact roomText_ne t.wellFormed hroom huser hin ((hagree roomId).mpr hroom)
  · -- the room called `\x7broom_id\x7d` has the same queue
    have hnot : ∀ roomId, t.args.get? "room_id" ≠ some (.str roomId) :=
      fun roomId hroom => hstr ⟨roomId, hroom⟩
    exact hnot _ ((hagree "\x7broom_id\x7d").mp (roomText_of_not_str hnot))

/-- Kicking player `userId` out of a room. -/
def kickOut (roomId : Json) (userId : UInt64) (hroom : roomId.WellFormed) : QueuedTask :=
  roomKick (.obj [("room_id", roomId), ("user_id", .num (.posInt userId))])
    (by simp [hroom, Number.WellFormed])

/-- Rooms 5 and 6 share a queue, and the room `A\x7buser_id\x7d` has one for each player. -/
theorem not_queue_sound :
    ¬ (kickOut (.num (.posInt 5)) 1 (by simp [Number.WellFormed])).Agrees
        (kickOut (.num (.posInt 6)) 1 (by simp [Number.WellFormed])) ∧
      ¬ (kickOut (.str "A\x7buser_id\x7d") 1 (by simp)).Agrees
        (kickOut (.str "A\x7buser_id\x7d") 2 (by simp)) := by
  constructor
  · intro h
    have htarget := (h.mp (by decide)).2
    exact absurd htarget (by decide)
  · intro h
    have hqueue := h.mpr (by decide)
    exact absurd hqueue (by decide)

end QueuedTask

end Ppb.Actions
