import Ppb.Admin.Routes
import Ppb.Admin.Save

/-!
# Who a notification reaches (`admin/notifications.rs`, `notifications/mod.rs`)

`send` resolves its target to users, stores a row for each and tells each. `summarize_target`
describes the target to whoever looks at what was sent: everybody, or so many groups and so many
users. The two read the target differently: `resolve_recipients` takes `group_ids` and, if that is
missing, `group_id`, and looks at `user_ids` only without either.

* `runs_send`: whom a `send` that succeeds has told and stored.
* `truthful_iff`: when that is the set that the target names, each user once.
-/

namespace Ppb.Admin

open Prog Auth Shared

variable {x : Extern} {state : AdminState} {auth : AuthPrincipal} {body : SendBody} {s s' : Store}
  {h h' : History Query Query.Answer} {target : Json}

/-! ## What the target says -/

/-- `all` is true. -/
def targetsAll (target : Json) : Bool := ((target.get? "all").bind Json.asBool).getD false

/-- The ids in `group_ids`. -/
def listedGroups (x : Extern) (target : Json) : Option (List Uuid) :=
  ((target.get? "group_ids").bind Json.asArray).map (uuidsOf x)

/-- The id in `group_id`. -/
def singleGroup (x : Extern) (target : Json) : Option Uuid :=
  ((target.get? "group_id").bind Json.asStr).bind x.parseUuid

/-- The ids in `user_ids`. -/
def listedUsers (x : Extern) (target : Json) : List Uuid :=
  (((target.get? "user_ids").bind Json.asArray).map (uuidsOf x)).getD []

/-- `summarize_target` (admin/notifications.rs:204-216) of a target that is there. -/
def summarizeTarget (target : Json) : String :=
  if targetsAll target = true then "all"
  else
    let groups := (((target.get? "group_ids").bind Json.asArray).map List.length).getD 0
    let users := (((target.get? "user_ids").bind Json.asArray).map List.length).getD 0
    if groups = 0 ∧ users = 0 then "—"
    else "groups:" ++ toString groups ++ "; users:" ++ toString users

/-- The users that the summary names: everybody, or the members of the groups listed and the users
    listed. -/
def Named (x : Extern) (s : Store) (target : Json) (user : Uuid) : Prop :=
  if targetsAll target = true then user ∈ s.users
  else (∃ group ∈ (listedGroups x target).getD [], user ∈ s.members group) ∨
    user ∈ listedUsers x target

theorem uuidsOf_of_length {items : Option (List Json)} (h : (items.map List.length).getD 0 = 0) :
    (items.map (uuidsOf x)).getD [] = [] := by
  cases items with
  | none => rfl
  | some items =>
    rw [List.length_eq_zero_iff.mp h]
    rfl

/-- A dash names nobody. -/
theorem not_named_of_dash (h : summarizeTarget target = "—") (user : Uuid) :
    ¬ Named x s target user := by
  rw [summarizeTarget] at h
  by_cases hall : targetsAll target = true
  · rw [if_pos hall] at h
    exact absurd h (by decide)
  · rw [if_neg hall] at h
    rw [Named, if_neg hall, listedGroups, listedUsers]
    by_cases hnone : (((target.get? "group_ids").bind Json.asArray).map List.length).getD 0 = 0 ∧
        (((target.get? "user_ids").bind Json.asArray).map List.length).getD 0 = 0
    · rw [uuidsOf_of_length hnone.1, uuidsOf_of_length hnone.2]
      simp
    · have hhead := congrArg (fun s => s.toList.head?) ((if_neg hnone).symm.trans h)
      simp at hhead

/-! ## What `send` does with it -/

/-- The users that `resolve_recipients` finds. -/
def resolved (x : Extern) (s : Store) (target : Json) : List Uuid :=
  if targetsAll target = true then s.users
  else
    match listedGroups x target with
    | some groups => ((groups.flatMap s.members).mergeSort (· ≤ ·)).destutter (· ≠ ·)
    | none =>
      match singleGroup x target with
      | some group => s.members group
      | none => listedUsers x target

/-- The rows of `user_notifications` for an event: one `INSERT … ON CONFLICT DO NOTHING` for each
    recipient (notifications/mod.rs:256-266). -/
def userRows (recipients : List Uuid) : List Uuid :=
  recipients.foldl (fun rows user => if user ∈ rows then rows else rows ++ [user]) []

/-- The user that is told. -/
def notifiedUser : Query → Option Uuid
  | .notify user _ _ _ => some user
  | _ => none

/-- The users that have been told, in order. -/
def notified (h : History Query Query.Answer) : List Uuid := h.filterMap fun e => notifiedUser e.1

/-- A question that tells nobody. -/
def Silent (q : Query) : Prop := notifiedUser q = none

theorem notified_extends (hx : Extends Silent h h') : notified h' = notified h := by
  obtain ⟨es, rfl, hes⟩ := hx
  have hnil : es.filterMap (fun e => notifiedUser e.1) = [] :=
    List.filterMap_eq_nil_iff.mpr fun e he => hes e he
  rw [notified, List.filterMap_append, hnil, List.append_nil, notified]

theorem silent_of_server {q : Query} (hq : IsServer q) : Silent q := by
  cases q with
  | server q => rfl
  | _ => exact hq.elim

theorem runs_membersOf (groups : List Uuid) :
    Runs exec (membersOf groups) s h fun s' h' r =>
      s' = s ∧ Extends Silent h h' ∧ ∀ out, r = .ok out → out = groups.flatMap s.members := by
  induction groups generalizing h with
  | nil => exact ⟨rfl, .refl, fun out hout => (Except.ok.inj hout).symm⟩
  | cons group rest ih =>
    refine runs_ask fun rows s₁ hexec => ?_
    have hread : reads s (s.members group) rows = some s₁ := hexec
    obtain ⟨rfl, hrows⟩ := reads_cases hread
    have hx : Extends Silent h (h ++ [⟨.groupMembers group, rows⟩]) := Extends.refl.snoc rfl
    cases rows with
    | error e => exact ⟨rfl, hx, nofun⟩
    | ok rows =>
      show Runs exec (membersOf rest >>= fun others => pure (rows ++ others)) s₁ _ _
      refine runs_bind ih ?_ ?_
      · rintro s₂ h₂ others ⟨rfl, hx', hothers⟩
        refine ⟨rfl, hx.trans hx', fun out hout => ?_⟩
        rw [← Except.ok.inj hout, hothers others rfl, hrows rows rfl, List.flatMap_cons]
      · rintro s₂ h₂ e ⟨rfl, hx', -⟩
        exact ⟨rfl, hx.trans hx', nofun⟩


theorem runs_resolveRecipients :
    Runs exec (resolveRecipients x target) s h fun s' h' r =>
      s' = s ∧ Extends Silent h h' ∧ ∀ out, r = .ok out → out = resolved x s target := by
  unfold resolveRecipients resolved targetsAll listedGroups singleGroup listedUsers
  split_ifs
  · refine runs_ask fun rows s₁ hexec => ?_
    have hread : reads s s.users rows = some s₁ := hexec
    obtain ⟨rfl, hrows⟩ := reads_cases hread
    cases rows with
    | error e => exact ⟨rfl, Extends.refl.snoc rfl, nofun⟩
    | ok rows =>
      exact ⟨rfl, Extends.refl.snoc rfl, fun out hout => (Except.ok.inj hout).symm.trans (hrows rows rfl)⟩
  · cases (target.get? "group_ids").bind Json.asArray with
    | some groups =>
      refine runs_bind (runs_membersOf _) ?_ ?_
      · rintro s₁ h₁ out ⟨rfl, hx, hout⟩
        rw [hout out rfl]
        exact ⟨rfl, hx, fun _ h => (Except.ok.inj h).symm⟩
      · rintro s₁ h₁ e ⟨rfl, hx, -⟩
        exact ⟨rfl, hx, nofun⟩
    | none =>
      simp only [Option.map_none]
      cases ((target.get? "group_id").bind Json.asStr).bind x.parseUuid with
      | some group =>
        refine runs_ask fun rows s₁ hexec => ?_
        have hread : reads s (s.members group) rows = some s₁ := hexec
        obtain ⟨rfl, hrows⟩ := reads_cases hread
        cases rows with
        | error e => exact ⟨rfl, Extends.refl.snoc rfl, nofun⟩
        | ok rows =>
          exact ⟨rfl, Extends.refl.snoc rfl,
            fun out hout => (Except.ok.inj hout).symm.trans (hrows rows rfl)⟩
      | none => exact ⟨rfl, .refl, fun out hout => (Except.ok.inj hout).symm⟩

theorem runs_notifyAll {payload : Json} (recipients : List Uuid) :
    Runs exec (notifyAll body payload recipients) s h fun s' h' r =>
      s' = s ∧ r = .ok () ∧ notified h' = notified h ++ recipients := by
  induction recipients generalizing h with
  | nil => exact ⟨rfl, rfl, (List.append_nil _).symm⟩
  | cons user rest ih =>
    refine runs_ask fun a s₁ hexec => ?_
    obtain rfl : s = s₁ := Option.some.inj hexec
    refine runs_mono ih ?_
    rintro s₂ h₂ r ⟨rfl, rfl, hnotified⟩
    refine ⟨rfl, rfl, ?_⟩
    rw [hnotified, notified, List.filterMap_append, ← notified, List.append_assoc]
    rfl

/-- The questions before the recipients are resolved. -/
theorem only_normalizeActionDrafts (drafts : List NotificationActionDraft) :
    (normalizeActionDrafts drafts).Only IsServer := by
  induction drafts with
  | nil => trivial
  | cons draft rest ih =>
    apply only_failIf_bind
    intro hvalid
    refine only_bind only_done fun _ => ?_
    exact only_bind (only_query trivial) fun _ => only_bind ih fun _ => trivial

/-- Whom a `send` that succeeds has told and stored. -/
theorem runs_send : Runs exec (send x state auth body) s h fun s' h' r => ∀ id n, r = .ok (id, n) →
    notified h' = notified h ++ resolved x s body.target ∧ n = (resolved x s body.target).length ∧
      ∃ event ∈ s'.events, event.id = id ∧ event.recipients = resolved x s body.target := by
  have herr {s' : Store} {h' : History Query Query.Answer} {e : ApiError} :
      ∀ id n, (.error e : Except ApiError (Uuid × ℕ)) = .ok (id, n) →
        notified h' = notified h ++ resolved x s body.target ∧ n = (resolved x s body.target).length ∧
          ∃ event ∈ s'.events, event.id = id ∧ event.recipients = resolved x s body.target := by
    rintro id n ⟨⟩
  have hserver {h' : History Query Query.Answer} (hx : Extends IsServer h h') :
      Extends Silent h h' := hx.mono fun _ => silent_of_server
  refine runs_bind (runs_call _) ?_ fun _ _ _ _ => herr
  rintro s₁ h₁ ⟨⟩ ⟨rfl, hx₁⟩
  refine runs_bind (runs_call _) ?_ fun _ _ _ _ => herr
  rintro s₂ h₂ ⟨⟩ ⟨rfl, hx₂⟩
  refine runs_bind (runs_of_only (only_normalizeActionDrafts _) fun _ _ _ => exec_server) ?_
    fun _ _ _ _ => herr
  rintro s₃ h₃ actions ⟨rfl, hx₃⟩
  refine runs_ofExcept_bind (fun _ _ => herr) fun payload _ => ?_
  refine runs_bind runs_resolveRecipients ?_ fun _ _ _ _ => herr
  rintro s₄ h₄ recipients ⟨rfl, hx₄, hrecipients⟩
  obtain rfl := hrecipients recipients rfl
  have hnotified : notified h₄ = notified h :=
    notified_extends ((hserver (hx₁.trans (hx₂.trans hx₃))).trans hx₄)
  refine runs_failIf_bind (fun _ => herr) fun _ => runs_ask fun event s₅ hexec => ?_
  have hpublish : orUnchanged s₄ (s₄.publish body.notificationType (some auth.sub) payload
      (resolved x s₄ body.target)) event = some s₅ := hexec
  cases event with
  | error e => exact herr
  | ok id =>
    have hstored : ∃ event ∈ s₅.events, event.id = id ∧
        event.recipients = resolved x s₄ body.target := by
      have hsome : s₄.publish body.notificationType (some auth.sub) payload
          (resolved x s₄ body.target) id = some s₅ := hpublish
      unfold Store.publish at hsome
      split_ifs at hsome
      obtain ⟨events, hevents, rfl⟩ := Option.map_eq_some_iff.mp hsome
      exact ⟨_, (Table.mem_insert hevents).mpr (.inr rfl), rfl, rfl⟩
    show Runs exec (notifyAll body payload (resolved x s₄ body.target) >>= fun _ =>
      pure (id, (resolved x s₄ body.target).length)) s₅ _ _
    refine runs_bind (runs_notifyAll _) ?_ fun _ _ _ _ => herr
    rintro s₆ h₆ ⟨⟩ ⟨rfl, -, htold⟩ id' n hok
    obtain ⟨rfl, rfl⟩ := Prod.mk.inj (Except.ok.inj hok)
    refine ⟨?_, rfl, hstored⟩
    rw [htold, notified, List.filterMap_append, ← notified, hnotified]
    exact congrArg (· ++ _) (List.append_nil _)

/-! ## Each user once -/

/-- There are as many rows as recipients exactly when no recipient comes twice. -/
theorem length_userRows_from (rows recipients : List Uuid) :
    (recipients.foldl (fun rows user => if user ∈ rows then rows else rows ++ [user])
      rows).length ≤ rows.length + recipients.length ∧
    ((recipients.foldl (fun rows user => if user ∈ rows then rows else rows ++ [user])
      rows).length = rows.length + recipients.length ↔
        recipients.Nodup ∧ ∀ user ∈ recipients, user ∉ rows) := by
  induction recipients generalizing rows with
  | nil => simp
  | cons first rest ih =>
    rw [List.foldl_cons, List.length_cons, List.nodup_cons]
    split_ifs with hmem
    · obtain ⟨hle, -⟩ := ih rows
      refine ⟨by omega, iff_of_false (by omega) ?_⟩
      exact fun h => h.2 first List.mem_cons_self hmem
    · obtain ⟨hle, hiff⟩ := ih (rows ++ [first])
      rw [List.length_append, List.length_singleton] at hle hiff
      refine ⟨by omega, ?_⟩
      rw [show rows.length + (rest.length + 1) = rows.length + 1 + rest.length by omega, hiff]
      simp only [List.mem_append, List.mem_singleton, not_or, List.forall_mem_cons]
      constructor
      · rintro ⟨hnodup, hnew⟩
        exact ⟨⟨fun h => (hnew first h).2 rfl, hnodup⟩, hmem, fun user h => (hnew user h).1⟩
      · rintro ⟨⟨hfirst, hnodup⟩, -, hnew⟩
        exact ⟨hnodup, fun user h => ⟨hnew user h, fun heq => hfirst (heq ▸ h)⟩⟩

theorem length_userRows_eq {recipients : List Uuid} :
    recipients.length = (userRows recipients).length ↔ recipients.Nodup := by
  have h := (length_userRows_from [] recipients).2
  simp only [List.length_nil, Nat.zero_add, List.not_mem_nil, not_false_eq_true, implies_true,
    and_true] at h
  rw [eq_comm, ← h]
  rfl

/-- The keys of the tables: a user is there once, and once in a group. -/
structure Store.Keyed (s : Store) : Prop where
  users : s.users.Nodup
  members : ∀ group, (s.members group).Nodup

theorem nodup_sorted_destutter (l : List Uuid) :
    ((l.mergeSort (· ≤ ·)).destutter (· ≠ ·)).Nodup ∧
      ∀ user, user ∈ (l.mergeSort (· ≤ ·)).destutter (· ≠ ·) ↔ user ∈ l := by
  have hsorted : (l.mergeSort (· ≤ ·)).Pairwise (· ≤ ·) := by
    have h : (l.mergeSort fun a b => decide (a ≤ b)).Pairwise fun a b => decide (a ≤ b) = true :=
      List.pairwise_mergeSort (fun a b c hab hbc => by
        rw [decide_eq_true_eq] at *
        exact BitVec.le_trans hab hbc) (fun a b => by
        rw [← Bool.decide_or, decide_eq_true_eq]
        exact BitVec.le_total a b) l
    simpa using h
  have hanti : Std.Antisymm fun a b : Uuid => a ≤ b := ⟨fun _ _ => BitVec.le_antisymm⟩
  rw [hsorted.destutter_eq_dedup]
  exact ⟨List.nodup_dedup _, fun user => by rw [List.mem_dedup, List.mem_mergeSort]⟩

/-! ## The target and its summary -/

/-- The event `id` reached each user that the target names, and no other, once, and `n` is the
    number of its rows. -/
structure Truthful (x : Extern) (s : Store) (target : Json) (h : History Query Query.Answer)
    (s' : Store) (id : Uuid) (n : ℕ) : Prop where
  once : (notified h).Nodup
  count : ∃ event ∈ s'.events, event.id = id ∧ n = (userRows event.recipients).length
  named : ∀ user, user ∈ notified h ↔ Named x s target user

/-- The target means the same to `resolve_recipients` as to `summarize_target`, and lists nobody
    twice. -/
def ReadsAlike (x : Extern) (s : Store) (target : Json) : Prop :=
  if targetsAll target = true then True
  else
    match listedGroups x target with
    | some groups => ∀ user ∈ listedUsers x target, ∃ group ∈ groups, user ∈ s.members group
    | none =>
      match singleGroup x target with
      | some group => ∀ user, user ∈ s.members group ↔ user ∈ listedUsers x target
      | none => (listedUsers x target).Nodup

theorem resolved_iff (hkeyed : s.Keyed) : ((resolved x s target).Nodup ∧
    ∀ user, user ∈ resolved x s target ↔ Named x s target user) ↔ ReadsAlike x s target := by
  unfold resolved ReadsAlike Named
  split_ifs with hall
  · exact iff_of_true ⟨hkeyed.users, fun _ => Iff.rfl⟩ trivial
  · cases listedGroups x target with
    | some groups =>
      obtain ⟨hnodup, hmem⟩ := nodup_sorted_destutter (groups.flatMap s.members)
      simp only [hnodup, true_and, hmem, List.mem_flatMap, Option.getD_some]
      constructor
      · exact fun h user huser => (h user).mpr (.inr huser)
      · exact fun h user => ⟨.inl, fun hnamed => hnamed.elim id (h user)⟩
    | none =>
      cases singleGroup x target with
      | some group => simp [hkeyed.members group]
      | none => simp

/-- A `send` that succeeds is truthful exactly when the target reads alike. -/
theorem truthful_iff (x : Extern) (state : AdminState) (auth : AuthPrincipal) (body : SendBody)
    (s s' : Store) (h : History Query Query.Answer) (id : Uuid) (n : ℕ) (hkeyed : s.Keyed)
    (hends : (send x state auth body).Ends h (.ok (id, n))) (hexec : execAll exec s h = some s') :
    Truthful x s body.target h s' id n ↔ ReadsAlike x s body.target := by
  obtain ⟨hnotified, rfl, event, hevent, hid, hrecipients⟩ :=
    (runs_send (h := [])).ends hends hexec id n rfl
  have hresolved : notified h = resolved x s body.target := hnotified
  rw [← resolved_iff hkeyed]
  constructor
  · rintro ⟨honce, -, hnamed⟩
    rw [hresolved] at honce hnamed
    exact ⟨honce, hnamed⟩
  · rintro ⟨honce, hnamed⟩
    rw [← hresolved] at hnamed
    refine ⟨hresolved ▸ honce, ⟨event, hevent, hid, ?_⟩, hnamed⟩
    rw [hrecipients]
    exact length_userRows_eq.mpr honce

/-! ### A user is listed twice -/

/-- The user 1 may send notifications to the users 1 and 2. -/
def sampleSenders : Store where
  users := [1, 2]
  groups _ := [⟨none, some "notification:send_system"⟩]
  members _ := []
  file := none
  tmp := none
  snapshots := .empty
  ppfConfig := none
  runbooks := .empty
  events := .empty
  acknowledged := none

theorem sampleSenders_keyed : sampleSenders.Keyed := ⟨by decide, fun _ => List.nodup_nil⟩

/-- A notification to users. -/
def toUsers (users : List Uuid) : SendBody :=
  ⟨"system", "t", "b", "normal", .obj [("user_ids", .arr (users.map fun u => .str u.toText))], [], "",
    .null⟩

/-- What `send` asks for it. -/
def toUsersAsks (users : List Uuid) (payload : Json) : History Query Query.Answer :=
  [⟨.server (.groupRows 1), .ok [⟨none, some "notification:send_system"⟩]⟩,
    ⟨.publish "system" (some 1) payload users, .ok 71⟩] ++
    users.map fun u => ⟨.notify u "t" "b" payload, ()⟩

/-- The payload that is stored with it. -/
def toUsersPayload (users : List Uuid) : Json :=
  match sendPayload (toUsers users) [] with
  | .ok payload => payload
  | .error _ => .null

/-- The store behind it. -/
def sampleSent (users : List Uuid) : Store :=
  ((sampleSenders.events.insert ⟨71, "system", some 1, toUsersPayload users, users⟩).map fun events =>
    { sampleSenders with events := events }).getD sampleSenders

theorem sampleSenders_ends (users : List Uuid) (h : users = [1, 2] ∨ users = [1, 1]) :
    (send sampleExtern sampleState sampleAuth (toUsers users)).Ends
        (toUsersAsks users (toUsersPayload users)) (.ok (71, 2)) ∧
      execAll exec sampleSenders (toUsersAsks users (toUsersPayload users)) =
        some (sampleSent users) := by
  rcases h with rfl | rfl
  · exact ⟨by decide +kernel, rfl⟩
  · exact ⟨by decide +kernel, rfl⟩

theorem truthful_iff_two : Truthful sampleExtern sampleSenders (toUsers [1, 2]).target
    (toUsersAsks [1, 2] (toUsersPayload [1, 2])) (sampleSent [1, 2]) 71 2 :=
  (truthful_iff sampleExtern sampleState sampleAuth (toUsers [1, 2]) sampleSenders _ _ _ _
    sampleSenders_keyed
    (sampleSenders_ends [1, 2] (.inl rfl)).1 (sampleSenders_ends [1, 2] (.inl rfl)).2).mpr
      (show (listedUsers sampleExtern (toUsers [1, 2]).target).Nodup by decide +kernel)

/-- Who is listed twice is told twice, and counted twice. -/
theorem not_truthful_twice : ¬ ∀ (x : Extern) (state : AdminState) (auth : AuthPrincipal)
    (body : SendBody) (s s' : Store) (h : History Query Query.Answer) (id : Uuid) (n : ℕ), s.Keyed →
    (send x state auth body).Ends h (.ok (id, n)) → execAll exec s h = some s' →
    Truthful x s body.target h s' id n := by
  intro h
  obtain ⟨hends, hexec⟩ := sampleSenders_ends [1, 1] (.inr rfl)
  have honce := (h sampleExtern _ _ _ _ _ _ _ _ sampleSenders_keyed hends hexec).once
  have htold : notified (toUsersAsks [1, 1] (toUsersPayload [1, 1])) = [1, 1] := rfl
  rw [htold] at honce
  exact absurd honce (by decide)

end Ppb.Admin
