import Ppb.Admin.FieldPermissions
import Ppb.Admin.Routes

/-!
# Can Root do what the API lets it attempt?

Root has no row in `users`. Some tables store who has written a row, in a column that refers to
`users` and may be `NULL`. The endpoints below store the `sub` of the principal, and for Root that
is the nil UUID, which the foreign key refuses. Elsewhere (`coupons.rs`, the audit log) the same
kind of column is written as `NULL` for Root.

* `ActorRequest`: the five endpoints.
* `served_iff`: they serve every principal but Root.
-/

namespace Ppb.Admin

open Prog Auth Shared

/-- A request to an endpoint that stores who has made it. -/
inductive ActorRequest where
  | configSave (headers : Headers) (body : ConfigValuesBody)
  | ppfUpdate (content : Json)
  | notificationSend (body : SendBody)
  | runbookCreate (body : CreateRunbookBody)
  | runbookUpdate (id : Uuid) (body : CreateRunbookBody)

def ActorRequest.program (x : Extern) (state : AdminState) (auth : AuthPrincipal) :
    ActorRequest → Handler Unit
  | .configSave headers body => do
    let _ ← save x state auth headers body
  | .ppfUpdate content => do
    let _ ← ppfConfigUpdate x state auth content
  | .notificationSend body => do
    let _ ← send x state auth body
  | .runbookCreate body => do
    let _ ← create state auth body
  | .runbookUpdate id body => update state auth id body

/-- The actor that a statement stores. -/
def actorOf : Query → Option (Option Uuid)
  | .insertSnapshot _ _ _ actor | .putPpfConfig _ actor | .insertRunbook _ _ _ actor
  | .updateRunbook _ _ _ _ actor | .publish _ actor _ _ => some actor
  | _ => none

/-- Who is to be stored: `NULL` for Root, and a user's id otherwise. -/
def storedActor (auth : AuthPrincipal) : Option Uuid :=
  if auth.isRoot = true then none else some auth.sub

/-- Root has the nil UUID and no row in `users`; any other principal has a row. -/
def Store.Principal (s : Store) (auth : AuthPrincipal) : Prop :=
  if auth.isRoot = true then auth.sub = Uuid.nil ∧ s.users.contains Uuid.nil = false
  else s.users.contains auth.sub = true

instance (s : Store) (auth : AuthPrincipal) : Decidable (s.Principal auth) :=
  inferInstanceAs (Decidable (if auth.isRoot = true then
    auth.sub = Uuid.nil ∧ s.users.contains Uuid.nil = false else s.users.contains auth.sub = true))

/-- The store in which `user` has a row. -/
def Store.withUser (s : Store) (user : Uuid) : Store :=
  if s.users.contains user = true then s else { s with users := s.users ++ [user] }

variable {x : Extern} {state : AdminState} {auth : AuthPrincipal} {req : ActorRequest} {s s' : Store}

/-- The request can succeed. -/
def Succeeds (x : Extern) (state : AdminState) (auth : AuthPrincipal) (req : ActorRequest)
    (s : Store) : Prop :=
  Can exec (req.program x state auth) s fun _ r => r = .ok ()

/-- The request is valid but for who makes it: it can succeed if he has a row in `users`. -/
def OtherwiseValid (x : Extern) (state : AdminState) (auth : AuthPrincipal) (req : ActorRequest)
    (s : Store) : Prop :=
  Succeeds x state auth req (s.withUser auth.sub)

/-- The request is not refused for who makes it, and stores him as the schema wants it. -/
structure Served (x : Extern) (state : AdminState) (auth : AuthPrincipal) (req : ActorRequest)
    (s : Store) : Prop where
  succeeds : Succeeds x state auth req s
  actor : ∀ h q actor, (req.program x state auth).Asks h q → actorOf q = some actor →
    actor = storedActor auth ∧ s.references actor = true

/-! ## What the endpoints store -/

/-- A question that stores nobody, or the principal. -/
def StoresSub (auth : AuthPrincipal) (q : Query) : Prop :=
  ∀ actor, actorOf q = some actor → actor = some auth.sub

/-- An event that stores somebody. -/
def Stores (e : Event Query Query.Answer) : Prop := (actorOf e.1).isSome = true

theorem storesSub_of_none {q : Query} (hq : actorOf q = none) : StoresSub auth q := by
  intro actor hactor
  rw [hq] at hactor
  cases hactor

theorem storesSub_call {α : Type} (p : Server α) : (call p).Only (StoresSub auth) := by
  refine (only_call p).mono fun q hq => storesSub_of_none ?_
  cases q with
  | server q => rfl
  | _ => exact hq.elim

theorem storesSub_writeYamlAtomic (content : String) :
    (writeYamlAtomic state content).Only (StoresSub auth) := by
  refine only_failIf_bind fun _ => ⟨storesSub_of_none rfl, fun created => ?_⟩
  cases created with
  | error u => trivial
  | ok inode =>
    refine ⟨storesSub_of_none rfl, fun ⟨written, _⟩ => ?_⟩
    cases written with
    | error u => trivial
    | ok u =>
      refine ⟨storesSub_of_none rfl, fun renamed => ?_⟩
      cases renamed <;> trivial

theorem storesSub_saveReload {headers : Headers} {body : ConfigValuesBody} {id : Uuid} :
    (saveReload headers body id).Only (StoresSub auth) := by
  refine ⟨storesSub_of_none rfl, fun reloaded => ?_⟩
  cases reloaded with
  | error e => trivial
  | ok v => exact ⟨storesSub_of_none rfl, fun _ => trivial⟩

theorem storesSub_save {headers : Headers} {body : ConfigValuesBody} :
    (save x state auth headers body).Only (StoresSub auth) := by
  refine only_bind ?_ fun _ => only_bind ?_ fun prev => ?_
  · refine only_bind (storesSub_call _) fun _ => only_bind (storesSub_call _) fun _ => ?_
    exact only_bind only_done fun _ => only_failIf
  · refine only_failIf_bind fun _ => ⟨storesSub_of_none rfl, fun opened => ?_⟩
    cases opened with
    | error u => trivial
    | ok inode =>
      refine ⟨storesSub_of_none rfl, fun text => ?_⟩
      cases text <;> trivial
  · refine only_bind only_done fun text => only_bind only_done fun _ => ?_
    refine only_bind (storesSub_call _) fun _ => only_bind (only_query ?_) fun row => ?_
    · intro actor hactor
      exact (Option.some.inj hactor).symm
    · refine only_bind only_mapErr fun row => ?_
      exact only_bind (storesSub_writeYamlAtomic text) fun _ => storesSub_saveReload

theorem storesSub_ppfConfigUpdate {content : Json} :
    (ppfConfigUpdate x state auth content).Only (StoresSub auth) := by
  refine only_bind (storesSub_call _) fun _ => only_bind only_done fun _ => ?_
  refine only_bind (storesSub_call _) fun _ => only_bind (only_query ?_) fun _ => only_mapErr
  intro actor hactor
  exact (Option.some.inj hactor).symm

theorem storesSub_normalizeActionDrafts (drafts : List NotificationActionDraft) :
    (normalizeActionDrafts drafts).Only (StoresSub auth) := by
  induction drafts with
  | nil => trivial
  | cons draft rest ih =>
    refine only_failIf_bind fun _ => only_bind only_done fun _ => ?_
    exact only_bind (only_query (storesSub_of_none rfl)) fun _ => only_bind ih fun _ => trivial

theorem storesSub_membersOf (groups : List Uuid) : (membersOf groups).Only (StoresSub auth) := by
  induction groups with
  | nil => trivial
  | cons group rest ih =>
    refine only_bind (only_query (storesSub_of_none rfl)) fun rows => only_bind only_mapErr fun _ => ?_
    exact only_bind ih fun _ => trivial

theorem storesSub_resolveRecipients (target : Json) :
    (resolveRecipients x target).Only (StoresSub auth) := by
  unfold resolveRecipients
  split_ifs
  · exact ⟨storesSub_of_none rfl, fun _ => only_mapErr⟩
  · split
    · exact only_bind (storesSub_membersOf _) fun _ => trivial
    · split
      · exact ⟨storesSub_of_none rfl, fun _ => only_mapErr⟩
      · trivial

theorem storesSub_notifyAll {body : SendBody} {payload : Json} (recipients : List Uuid) :
    (notifyAll body payload recipients).Only (StoresSub auth) := by
  induction recipients with
  | nil => trivial
  | cons user rest ih => exact ⟨storesSub_of_none rfl, fun _ => ih⟩

theorem storesSub_send {body : SendBody} : (send x state auth body).Only (StoresSub auth) := by
  refine only_bind (storesSub_call _) fun _ => only_bind (storesSub_call _) fun _ => ?_
  refine only_bind (storesSub_normalizeActionDrafts _) fun actions => only_bind only_done fun payload => ?_
  refine only_bind (storesSub_resolveRecipients _) fun recipients => only_failIf_bind fun _ => ?_
  refine only_bind (only_query ?_) fun event => only_bind only_mapErr fun _ => ?_
  · intro actor hactor
    exact (Option.some.inj hactor).symm
  · exact only_bind (storesSub_notifyAll _) fun _ => trivial

theorem storesSub_runbookGuard {body : CreateRunbookBody} :
    (runbookGuard state auth body).Only (StoresSub auth) :=
  only_bind (storesSub_call _) fun _ => only_bind (storesSub_call _) fun _ => storesSub_call _

/-- Whoever is stored is the principal. -/
theorem program_storesSub (req : ActorRequest) :
    (req.program x state auth).Only (StoresSub auth) := by
  cases req with
  | configSave headers body => exact only_bind storesSub_save fun _ => only_done
  | ppfUpdate content => exact only_bind storesSub_ppfConfigUpdate fun _ => only_done
  | notificationSend body => exact only_bind storesSub_send fun _ => only_done
  | runbookCreate body =>
    refine only_bind (only_bind storesSub_runbookGuard fun _ => ?_) fun _ => only_done
    refine only_bind (only_query ?_) fun _ => only_mapErr
    intro actor hactor
    exact (Option.some.inj hactor).symm
  | runbookUpdate id body =>
    refine only_bind storesSub_runbookGuard fun _ => only_bind (only_query ?_) fun _ => only_mapErr
    intro actor hactor
    exact (Option.some.inj hactor).symm

/-- No request succeeds without storing somebody. -/
theorem program_owes (req : ActorRequest) : (req.program x state auth).Owes Stores := by
  cases req with
  | configSave headers body =>
    refine Owes.bind (owes_bind fun _ => owes_bind fun prev => owes_bind fun text => ?_)
    exact owes_bind fun _ => owes_bind fun _ => owes_ask fun row => .inl rfl
  | ppfUpdate content =>
    refine Owes.bind (owes_bind fun _ => owes_bind fun _ => owes_bind fun _ => ?_)
    exact owes_ask fun _ => .inl rfl
  | notificationSend body =>
    refine Owes.bind (owes_bind fun _ => owes_bind fun _ => owes_bind fun _ => owes_bind fun _ => ?_)
    exact owes_bind fun _ => owes_bind fun _ => owes_ask fun _ => .inl rfl
  | runbookCreate body => exact Owes.bind (owes_bind fun _ => owes_ask fun _ => .inl rfl)
  | runbookUpdate id body => exact owes_bind fun _ => owes_ask fun _ => .inl rfl

/-! ## Who is served -/

theorem withUser_of_user (hprincipal : s.Principal auth) (huser : auth.isRoot = false) :
    s.withUser auth.sub = s ∧ s.references (storedActor auth) = true := by
  unfold Store.Principal at hprincipal
  rw [huser] at hprincipal
  have hmem : s.users.contains auth.sub = true := hprincipal
  refine ⟨by rw [Store.withUser, if_pos hmem], ?_⟩
  rw [storedActor, huser]
  exact hmem

/-- An endpoint that stores its principal serves everybody who can use it but Root. -/
theorem served_iff (x : Extern) (state : AdminState) (auth : AuthPrincipal) (req : ActorRequest)
    (s : Store) (hprincipal : s.Principal auth) (hvalid : OtherwiseValid x state auth req s) :
    Served x state auth req s ↔ auth.isRoot = false := by
  constructor
  · intro hserved
    by_contra hroot
    rw [Bool.not_eq_false] at hroot
    obtain ⟨h, s', r, hends, -, rfl⟩ := Can.ends hvalid
    obtain ⟨h', e, hstores, hasks⟩ := (program_owes req).asked hends
    obtain ⟨actor, hactor⟩ := Option.isSome_iff_exists.mp hstores
    have hsub := (program_storesSub req).asks hasks actor hactor
    have hnull := (hserved.actor h' e.1 actor hasks hactor).1
    rw [storedActor, if_pos hroot, hsub] at hnull
    cases hnull
  · intro huser
    obtain ⟨hsame, hreferences⟩ := withUser_of_user hprincipal huser
    unfold OtherwiseValid at hvalid
    rw [hsame] at hvalid
    refine ⟨hvalid, fun h q actor hasks hactor => ?_⟩
    have hsub : actor = storedActor auth := by
      rw [(program_storesSub req).asks hasks actor hactor, storedActor, huser]
      rfl
    exact ⟨hsub, hsub ▸ hreferences⟩

/-! ### A user and Root create a runbook -/

/-- A runbook that waits. -/
def sampleRunbook : CreateRunbookBody := ⟨"r", "", "r", "", .null, [⟨"", .null, some 5⟩]⟩

/-- The user 1 may edit runbooks. -/
def sampleEditors : Store where
  users := [1]
  groups _ := [⟨none, some "automation:edit"⟩]
  members _ := []
  file := none
  tmp := none
  snapshots := .empty
  ppfConfig := none
  runbooks := .empty
  events := .empty
  acknowledged := none

def sampleRoot : AuthPrincipal := ⟨Uuid.nil, 22, .root, .panel, "r-2"⟩

/-- A request that succeeds on a path that can be computed. -/
theorem succeeds_of_run {h : History Query Query.Answer} (hends : (req.program x state auth).Ends h (.ok ()))
    (hexec : (execAll exec s h).isSome = true) : Succeeds x state auth req s := by
  obtain ⟨s', hs'⟩ := Option.isSome_iff_exists.mp hexec
  exact (can_of_ends hends hs').mono fun _ _ hend => hend.2

/-- The request is valid for the user. -/
theorem sampleEditors_valid :
    OtherwiseValid sampleExtern sampleState sampleAuth (.runbookCreate sampleRunbook) sampleEditors :=
  succeeds_of_run (h := [⟨.server (.groupRows 1), .ok [⟨none, some "automation:edit"⟩]⟩,
    ⟨.insertRunbook "r" "" sampleRunbook.definition (some 1), .ok 61⟩]) (by decide +kernel)
    (by decide +kernel)

/-- He creates the runbook. -/
theorem served_user :
    Served sampleExtern sampleState sampleAuth (.runbookCreate sampleRunbook) sampleEditors :=
  (served_iff _ _ _ _ _ (by decide +kernel) sampleEditors_valid).mpr rfl

/-- Root cannot, although nothing else is wrong with its request. -/
theorem not_served_root : sampleEditors.Principal sampleRoot ∧
    OtherwiseValid sampleExtern sampleState sampleRoot (.runbookCreate sampleRunbook) sampleEditors ∧
    ¬ Succeeds sampleExtern sampleState sampleRoot (.runbookCreate sampleRunbook) sampleEditors ∧
    ¬ Served sampleExtern sampleState sampleRoot (.runbookCreate sampleRunbook) sampleEditors := by
  have hrefused : ¬ Succeeds sampleExtern sampleState sampleRoot (.runbookCreate sampleRunbook)
      sampleEditors := by
    rintro ⟨row, s', hexec, hnext⟩
    rcases orUnchanged_cases hexec with rfl | ⟨id, rfl, hinsert⟩
    · match row, hexec, hnext with
      | .ok id, hexec, _ => cases hexec
      | .error e, _, hnext => cases hnext
    · cases hinsert
  refine ⟨by decide +kernel, ?_, hrefused, fun hserved => hrefused hserved.succeeds⟩
  exact succeeds_of_run (h := [⟨.insertRunbook "r" "" sampleRunbook.definition (some Uuid.nil), .ok 61⟩])
    (by decide +kernel) (by decide +kernel)

end Ppb.Admin
